import RegisterMachine.Proofs.Files.Invariant

/-! # The working path as text

Names hold no slash and are not empty, so the text of the working path tells where one name ends and
the next begins. The names also lead back: from the root, entering one after the other ends where
the path was read.
-/

namespace RegisterMachine.Files

variable {files : Files}

/-! ## Reading the text -/

private theorem toList_pathText (files : Files) :
    files.pathText.toList = '/' :: ['/'].intercalate (files.path.map String.toList) := by
  rw [pathText, String.toList_append, String.toList_intercalate]
  rfl

/-- Cutting the text at its slashes gives the names on the path. -/
theorem splitOn_path (segments : ∀ segment ∈ files.path, IsEntryName segment)
    (deep : files.path ≠ []) :
    ((['/'].intercalate (files.path.map String.toList)).splitOn '/').map String.ofList =
      files.path := by
  have free : ∀ text ∈ files.path.map String.toList, '/' ∉ text := by
    rw [List.forall_mem_map]
    exact fun segment member => (segments segment member).2.2.2
  rw [List.splitOn_intercalate '/' free (mt List.map_eq_nil_iff.mp deep), List.map_map]
  exact List.map_id'' (fun _ => String.ofList_toList) files.path

/-- The text is a slash alone only where the path is empty. -/
theorem pathText_eq_slash_iff (segments : ∀ segment ∈ files.path, IsEntryName segment) :
    files.pathText = "/" ↔ files.path = [] := by
  rw [← String.toList_inj, toList_pathText]
  constructor
  · intro bare
    by_contra deep
    -- A path whose text holds nothing behind the slash would have one name, and that an empty one.
    have read := splitOn_path segments deep
    rw [(List.cons.inj bare).2] at read
    have empty : "" ∈ files.path := by
      rw [← read]
      exact List.mem_singleton.mpr rfl
    exact (segments "" empty).1 rfl
  · intro empty
    rw [empty]
    rfl

/-- The text names one path only. -/
theorem path_of_pathText_eq {others : Files}
    (segments : ∀ segment ∈ files.path, IsEntryName segment)
    (otherSegments : ∀ segment ∈ others.path, IsEntryName segment)
    (same : others.pathText = files.pathText) : others.path = files.path := by
  by_cases bare : files.path = []
  · have root := (pathText_eq_slash_iff segments).mpr bare
    rw [bare, ← pathText_eq_slash_iff otherSegments, same, root]
  · have deep : others.path ≠ [] := by
      rwa [ne_eq, ← pathText_eq_slash_iff otherSegments, same, pathText_eq_slash_iff segments]
    have inside : ['/'].intercalate (others.path.map String.toList) =
        ['/'].intercalate (files.path.map String.toList) := by
      have texts := congrArg String.toList same
      rw [toList_pathText, toList_pathText] at texts
      exact (List.cons.inj texts).2
    rw [← splitOn_path otherSegments deep, inside, splitOn_path segments bare]

/-! ## Up to the root and down again -/

/-- Leaving directories drops as many names from the path's end. -/
theorem leave_times (files : Files) (steps : Nat) :
    (List.replicate steps "..").foldlM changeDirectory files =
      .ok { files with path := files.path.take (files.path.length - steps) } := by
  induction steps generalizing files with
  | zero =>
    rw [Nat.sub_zero, List.take_length]
    rfl
  | succ steps ih =>
    rw [List.replicate_succ, List.foldlM_cons, changeDirectory, if_pos rfl]
    refine (ih _).trans ?_
    have kept : min (files.path.length - 1 - steps) (files.path.length - 1) =
        files.path.length - (steps + 1) := by omega
    show Except.ok (Files.mk files.root (files.path.dropLast.take _)) = _
    rw [List.length_dropLast, List.dropLast_eq_take, List.take_take, kept]

/-- A name is entered where the path leads on through it. -/
theorem changeDirectory_of_leads {root target : Entries} {path others : List String} {name : String}
    (valid : IsEntryName name) (leads : entriesAt (path ++ name :: others) root = .ok target) :
    changeDirectory ⟨root, path⟩ name = .ok ⟨root, path ++ [name]⟩ := by
  rw [entriesAt_append] at leads
  obtain ⟨entries, found, further⟩ := bind_eq_ok_iff.mp leads
  have here : Files.here ⟨root, path⟩ = .ok entries := found
  rw [changeDirectory_eq here, if_neg valid.2.2.1, if_neg valid.2.1,
    if_pos (isValidName_iff.mpr valid)]
  rw [entriesAt] at further
  cases present : entries.lookup name with
  | none =>
    rw [present] at further
    contradiction
  | some node =>
    rw [present] at further
    cases node with
    | file content => contradiction
    | directory inner => rfl

/-- Entering directories one after the other appends their names to the path, where all of them lead
on. -/
theorem enter_each {root target : Entries} {names : List String} (path : List String)
    (valid : ∀ name ∈ names, IsEntryName name)
    (leads : entriesAt (path ++ names) root = .ok target) :
    names.foldlM changeDirectory (⟨root, path⟩ : Files) = .ok ⟨root, path ++ names⟩ := by
  induction names generalizing path with
  | nil => rw [List.append_nil]; rfl
  | cons name others ih =>
    rw [List.forall_mem_cons] at valid
    have entered := changeDirectory_of_leads valid.1 leads
    rw [List.append_cons] at leads
    rw [List.foldlM_cons, entered, List.append_cons path name others]
    exact ih (path ++ [name]) valid.2 leads

/-- The names on the path of an orderly tree can be entered from the root, one after the other. -/
theorem Invariant.enter_path (invariant : Invariant files) (steps : Nat) :
    (files.path.take steps).foldlM Files.changeDirectory { files with path := [] } =
      .ok { files with path := files.path.take steps } := by
  obtain ⟨entries, found, -, -⟩ := invariant.exists_here
  rw [here, ← List.take_append_drop steps files.path, entriesAt_append] at found
  obtain ⟨middle, leads, -⟩ := bind_eq_ok_iff.mp found
  exact enter_each [] (fun name member => invariant.segments name (List.mem_of_mem_take member))
    leads

/-- Whatever was done to the empty tree, the text of the working path is a slash alone exactly at
the root, elsewhere what stands behind its first slash gives the path when cut at every slash, and
no other path has the same text. Leaving as many directories as the path has names leads to the
root, and entering its names in turn leads back; every step succeeds, at each of them the path is
the beginning of the working path that it should be, and the tree is the same. -/
theorem run_empty_path (operations : List Operation) :
    let files := run {} operations
    let depth := files.path.length
    (files.pathText = "/" ↔ files.path = []) ∧
    (files.path ≠ [] → ∃ text, files.pathText.toList = '/' :: text ∧
      (text.splitOn '/').map String.ofList = files.path) ∧
    (∀ others, (run {} others).pathText = files.pathText → (run {} others).path = files.path) ∧
    (∀ steps, (List.replicate steps "..").foldlM changeDirectory files =
      .ok { files with path := files.path.take (depth - steps) }) ∧
    (∀ steps, (files.path.take steps).foldlM changeDirectory { files with path := [] } =
      .ok { files with path := files.path.take steps }) ∧
    (List.replicate depth ".." ++ files.path).foldlM changeDirectory files = .ok files := by
  intro files depth
  have invariant : Invariant files := invariant_empty.run operations
  refine ⟨pathText_eq_slash_iff invariant.segments, ?_, ?_, leave_times files,
    invariant.enter_path, ?_⟩
  · intro deep
    exact ⟨_, toList_pathText files, splitOn_path invariant.segments deep⟩
  · intro others same
    have orderly : Invariant (run {} others) := invariant_empty.run others
    exact path_of_pathText_eq invariant.segments orderly.segments same
  · have back := invariant.enter_path depth
    rw [List.take_length] at back
    rw [List.foldlM_append, leave_times, Nat.sub_self, List.take_zero]
    exact back

/-- A path through a name with a blank and one with an accent, below a file that is in the way of
neither. -/
theorem run_empty_path_samples :
    let operations : List Operation :=
      [.makeDirectory "a b", .write "c" "", .changeDirectory "a b", .makeDirectory "é",
        .changeDirectory "é"]
    let files := run {} operations
    files.pathText = "/a b/é" ∧
      (∃ text, files.pathText.toList = '/' :: text ∧
        (text.splitOn '/').map String.ofList = files.path) ∧
      files.path = ["a b", "é"] ∧
      (run {} (operations ++ [.list])).path = files.path ∧
      (List.replicate 2 ".." ++ files.path).foldlM changeDirectory files = .ok files := by
  intro operations files
  obtain ⟨-, cut, same, -, -, there⟩ := run_empty_path operations
  have path : files.path = ["a b", "é"] := by decide +kernel
  refine ⟨by decide +kernel, cut (by rw [path]; exact List.cons_ne_nil _ _), path,
    same (operations ++ [.list]) (by decide +kernel), ?_⟩
  rwa [path] at there ⊢

end RegisterMachine.Files
