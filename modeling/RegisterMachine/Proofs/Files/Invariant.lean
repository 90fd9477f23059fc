import RegisterMachine.Proofs.Files.Run
import RegisterMachine.Proofs.Files.Working
import RegisterMachine.Proofs.Success

/-! # What every run keeps of the tree

From the empty tree no run of operations, failing ones included, leaves the working path pointing at
nothing, gives two entries of a directory one name, or stores a name that could not be given to an
entry. So listing never fails, a valid name can always be written, and whatever is reported missing
or no directory is the name that the operation was given.
-/

namespace RegisterMachine.Files

/-- A name that an entry may have. -/
def IsEntryName (name : String) : Prop :=
  name ≠ "" ∧ name ≠ "." ∧ name ≠ ".." ∧ '/' ∉ name.toList

theorem isValidName_iff {name : String} : isValidName name = true ↔ IsEntryName name := by
  simp [isValidName, IsEntryName, and_assoc]

/-- In this directory and in every directory below it, names are distinct and may be given. -/
inductive Orderly : Entries → Prop
  | intro {entries : Entries} (distinct : (entries.map Prod.fst).Nodup)
      (names : ∀ name ∈ entries.map Prod.fst, IsEntryName name)
      (below : ∀ name inner, (name, Node.directory inner) ∈ entries → Orderly inner) :
      Orderly entries

/-- A path that leads from one directory to another, one entry after the other. -/
inductive Leads : Entries → List String → Entries → Prop
  | stay (entries : Entries) : Leads entries [] entries
  | enter {entries inner target : Entries} {segment : String} {others : List String}
      (entry : (segment, Node.directory inner) ∈ entries) (rest : Leads inner others target) :
      Leads entries (segment :: others) target

/-- What holds of the tree at all times. -/
structure Invariant (files : Files) : Prop where
  orderly : Orderly files.root
  segments : ∀ segment ∈ files.path, IsEntryName segment
  resolves : ∃ entries, Leads files.root files.path entries

/-- Why an operation fails in a working directory with the given entries. Every reason lies in the
name that the operation was given. -/
inductive Reason (entries : Entries) : Operation → Error → Prop
  | refused {operation : Operation} {name : String} (given : operation.name? = some name)
      (invalid : ¬IsEntryName name) : Reason entries operation (.invalidName name)
  | taken {name : String} (present : name ∈ entries.map Prod.fst) :
      Reason entries (.makeDirectory name) (.alreadyExists name)
  | directory {name : String} {inner : Entries} (present : (name, .directory inner) ∈ entries) :
      Reason entries (.read name) (.isADirectory name)
  | file {name content : String} (present : (name, .file content) ∈ entries) :
      Reason entries (.changeDirectory name) (.notADirectory name)
  | missing {operation : Operation} {name : String} (given : operation.name? = some name)
      (absent : name ∉ entries.map Prod.fst) : Reason entries operation (.notFound name)

/-! ## Orderly entries -/

private theorem orderly_nil : Orderly [] := .intro .nil (by simp) (by simp)

private theorem Orderly.put {entries : Entries} (orderly : Orderly entries) {name : String}
    {node : Node}
    (valid : IsEntryName name) (below : ∀ inner, node = .directory inner → Orderly inner) :
    Orderly (put name node entries) := by
  obtain ⟨distinct, names, inside⟩ := orderly
  refine .intro ?_ ?_ ?_
  · rw [names_put]
    split
    · exact distinct
    · next absent =>
      rw [← List.concat_eq_append]
      exact distinct.concat absent
  · intro other member
    rw [names_put] at member
    split at member
    · exact names other member
    · rcases List.mem_append.mp member with old | new
      · exact names other old
      · exact List.mem_singleton.mp new ▸ valid
  · intro other inner member
    rcases mem_of_mem_put member with same | old
    · obtain ⟨-, rfl⟩ := Prod.mk.inj same
      exact below inner rfl
    · exact inside other inner old

private theorem Orderly.drop {entries : Entries} (orderly : Orderly entries) (name : String) :
    Orderly (drop name entries) := by
  obtain ⟨distinct, names, inside⟩ := orderly
  have kept := drop_sublist name entries
  refine .intro (distinct.sublist (kept.map _)) ?_ ?_
  · intro other member
    exact names other ((kept.map _).subset member)
  · intro other inner member
    exact inside other inner (kept.subset member)

private theorem Orderly.entriesAt {path : List String} {entries target : Entries}
    (orderly : Orderly entries) (found : entriesAt path entries = .ok target) : Orderly target := by
  induction path generalizing entries with
  | nil =>
    cases found
    exact orderly
  | cons segment others ih =>
    simp only [Files.entriesAt] at found
    split at found
    · next inner present =>
      obtain ⟨-, -, inside⟩ := orderly
      exact ih (inside segment inner (mem_of_lookup present)) found
    · contradiction
    · contradiction

private theorem Orderly.replaceAt {path : List String} {entries changed : Entries}
    (orderly : Orderly entries) (new : Orderly changed) :
    Orderly (replaceAt path entries changed) := by
  induction path generalizing entries with
  | nil => exact new
  | cons segment others ih =>
    rw [Files.replaceAt]
    split
    · next inner present =>
      have entry := mem_of_lookup present
      have valid : IsEntryName segment := by
        obtain ⟨-, names, -⟩ := orderly
        exact names segment (List.mem_map_of_mem entry)
      refine orderly.put valid ?_
      rintro _ ⟨rfl⟩
      obtain ⟨-, -, inside⟩ := orderly
      exact ih (inside segment inner entry)
    · exact orderly

/-! ## Paths that lead somewhere -/

/-- Where names are distinct, the path leads to the directory that looking up its names finds. -/
theorem leads_iff_entriesAt {path : List String} {entries target : Entries}
    (orderly : Orderly entries) :
    Leads entries path target ↔ entriesAt path entries = .ok target := by
  constructor
  · intro leads
    induction leads with
    | stay => rfl
    | @enter entries inner target segment others entry rest ih =>
      -- Only because names are distinct does the lookup find the entry that the path goes through.
      obtain ⟨distinct, -, inside⟩ := orderly
      rw [Files.entriesAt, lookup_of_mem distinct entry]
      exact ih (inside segment inner entry)
  · intro found
    induction path generalizing entries with
    | nil =>
      cases found
      exact .stay _
    | cons segment others ih =>
      rw [Files.entriesAt] at found
      split at found
      · next inner present =>
        obtain ⟨-, -, inside⟩ := orderly
        have entry := mem_of_lookup present
        exact .enter entry (ih (inside segment inner entry) found)
      · contradiction
      · contradiction

/-! ## Operations -/

theorem invariant_empty : Invariant {} := ⟨orderly_nil, by simp, [], .stay []⟩

namespace Invariant

variable {files changed : Files} {entries : Entries}

/-- The working directory is there, and it is orderly. -/
theorem exists_here (invariant : Invariant files) :
    ∃ entries, files.here = .ok entries ∧ Leads files.root files.path entries ∧
      Orderly entries := by
  obtain ⟨entries, leads⟩ := invariant.resolves
  have found := (leads_iff_entriesAt invariant.orderly).mp leads
  exact ⟨entries, found, leads, invariant.orderly.entriesAt found⟩

/-- The working path outlives every orderly change of the working directory. -/
theorem replaceHere (invariant : Invariant files) (found : files.here = .ok entries)
    {replaced : Entries} (orderly : Orderly replaced) : Invariant (files.replaceHere replaced) := by
  have root : Orderly (replaceAt files.path files.root replaced) :=
    invariant.orderly.replaceAt orderly
  exact ⟨root, invariant.segments, replaced,
    (leads_iff_entriesAt root).mpr (entriesAt_replaceAt found replaced)⟩

/-- The path without its last segment leads somewhere as well. -/
theorem leave (invariant : Invariant files) :
    Invariant { files with path := files.path.dropLast } := by
  obtain ⟨entries, found, -, -⟩ := invariant.exists_here
  refine ⟨invariant.orderly, ?_, ?_⟩
  · intro segment member
    exact invariant.segments segment (List.dropLast_subset _ member)
  · rcases List.eq_nil_or_concat files.path with empty | ⟨path, last, split⟩
    · exact ⟨files.root, by simpa [empty] using Leads.stay files.root⟩
    · rw [here, split, List.concat_eq_append, entriesAt_append] at found
      obtain ⟨outer, upper, -⟩ := bind_eq_ok_iff.mp found
      refine ⟨outer, (leads_iff_entriesAt invariant.orderly).mpr ?_⟩
      simpa [split] using upper

/-- The path leads on into a directory that the working directory holds. -/
theorem enter (invariant : Invariant files) (found : files.here = .ok entries) {name : String}
    (valid : IsEntryName name) {inner : Entries}
    (present : entries.lookup name = some (.directory inner)) :
    Invariant { files with path := files.path ++ [name] } := by
  refine ⟨invariant.orderly, ?_, inner, (leads_iff_entriesAt invariant.orderly).mpr ?_⟩
  · intro segment member
    rcases List.mem_append.mp member with old | new
    · exact invariant.segments segment old
    · exact List.mem_singleton.mp new ▸ valid
  · rw [here] at found
    simp [entriesAt_append, found, Except.bind, Files.entriesAt, present]

private theorem makeDirectory (invariant : Invariant files) {name : String}
    (success : files.makeDirectory name = .ok changed) : Invariant changed := by
  obtain ⟨entries, found, -, orderly⟩ := invariant.exists_here
  rw [makeDirectory_eq found] at success
  split at success
  · next valid =>
    split at success
    · contradiction
    · cases success
      refine invariant.replaceHere found (orderly.put (isValidName_iff.mp valid) ?_)
      rintro inner ⟨rfl⟩
      exact orderly_nil
  · contradiction

private theorem changeDirectory (invariant : Invariant files) {name : String}
    (success : files.changeDirectory name = .ok changed) : Invariant changed := by
  obtain ⟨entries, found, -, -⟩ := invariant.exists_here
  rw [changeDirectory_eq found] at success
  split at success
  · cases success
    exact invariant.leave
  split at success
  · cases success
    exact invariant
  split at success
  · next valid =>
    split at success
    · next inner present =>
      cases success
      exact invariant.enter found (isValidName_iff.mp valid) present
    · contradiction
    · contradiction
  · contradiction

private theorem write (invariant : Invariant files) {name content : String}
    (success : files.write name content = .ok changed) : Invariant changed := by
  obtain ⟨entries, found, -, orderly⟩ := invariant.exists_here
  rw [write_eq found] at success
  split at success
  · next valid =>
    cases success
    exact invariant.replaceHere found (orderly.put (isValidName_iff.mp valid) (by simp))
  · contradiction

private theorem remove (invariant : Invariant files) {name : String}
    (success : files.remove name = .ok changed) : Invariant changed := by
  obtain ⟨entries, found, -, orderly⟩ := invariant.exists_here
  rw [remove_eq found] at success
  split at success
  · cases success
    exact invariant.replaceHere found (orderly.drop name)
  · contradiction

/-- Every operation keeps the invariant, also one that fails. -/
theorem after (invariant : Invariant files) (operation : Operation) :
    Invariant (files.after operation) := by
  rw [Files.after]
  split
  · next _ _ success =>
    cases operation <;> obtain ⟨_, done, ⟨⟩⟩ := map_eq_ok_iff.mp success
    case makeDirectory => exact invariant.makeDirectory done
    case changeDirectory => exact invariant.changeDirectory done
    case list => exact invariant
    case write => exact invariant.write done
    case read => exact invariant
    case remove => exact invariant.remove done
  · exact invariant

/-- Every run keeps the invariant. -/
theorem run (invariant : Invariant files) (operations : List Operation) :
    Invariant (files.run operations) := by
  induction operations generalizing files with
  | nil => exact invariant
  | cons operation others ih => exact ih (invariant.after operation)

/-- What is written under a valid name is read back. -/
theorem read_write (invariant : Invariant files) {name : String} (valid : IsEntryName name)
    (content : String) : (files.after (.write name content)).read name = .ok content := by
  obtain ⟨entries, found, -, -⟩ := invariant.exists_here
  have written : files.perform (.write name content) =
      .ok (files.replaceHere (put name (.file content) entries), .done) := by
    rw [perform, write_eq found, if_pos (isValidName_iff.mpr valid)]
    rfl
  have there : (files.replaceHere (put name (.file content) entries)).here =
      .ok (put name (.file content) entries) := entriesAt_replaceAt found _
  rw [Files.after, written]
  dsimp only
  rw [read_eq there, lookup_put_self]

/-- Every failure has a reason that lies in the operation's name and the working directory. -/
theorem exists_reason (invariant : Invariant files) {operation : Operation} {error : Error}
    (failure : files.perform operation = .error error) :
    ∃ entries, Leads files.root files.path entries ∧ Reason entries operation error := by
  obtain ⟨entries, found, leads, -⟩ := invariant.exists_here
  refine ⟨entries, leads, ?_⟩
  cases operation <;> have reported := map_eq_error_iff.mp failure
  case makeDirectory name =>
    rw [makeDirectory_eq found] at reported
    split at reported
    · split at reported <;> cases reported
      next node present => exact .taken (List.mem_map_of_mem (mem_of_lookup present))
    · next refused =>
      cases reported
      exact .refused rfl (mt isValidName_iff.mpr refused)
  case changeDirectory name =>
    rw [changeDirectory_eq found] at reported
    split at reported
    · cases reported
    split at reported
    · cases reported
    split at reported
    · split at reported <;> cases reported
      · next content present => exact .file (mem_of_lookup present)
      · next absent => exact .missing rfl (lookup_eq_none_iff.mp absent)
    · next refused =>
      cases reported
      exact .refused rfl (mt isValidName_iff.mpr refused)
  case list =>
    rw [list_eq found] at reported
    cases reported
  case write name content =>
    rw [write_eq found] at reported
    split at reported <;> cases reported
    next refused => exact .refused rfl (mt isValidName_iff.mpr refused)
  case read name =>
    rw [read_eq found] at reported
    split at reported <;> cases reported
    · next inner present => exact .directory (mem_of_lookup present)
    · next absent => exact .missing rfl (lookup_eq_none_iff.mp absent)
  case remove name =>
    rw [remove_eq found] at reported
    split at reported <;> cases reported
    next absent => exact .missing rfl (lookup_eq_none_iff.mp absent)

end Invariant

/-- Whatever was done to the empty tree, the working path leads to a directory through names that
entries may have, names are distinct and valid in every directory, listing succeeds, a valid name
can be written, and a failure is never blamed on a segment of the working path. -/
theorem run_empty_invariant (operations : List Operation) :
    let files := run {} operations
    Invariant files ∧
    (∃ items, files.list = .ok items) ∧
    (∀ name content, IsEntryName name → ∃ changed, files.write name content = .ok changed) ∧
    (∀ operation error, files.perform operation = .error error →
      ∃ entries, Leads files.root files.path entries ∧ Reason entries operation error) := by
  intro files
  have invariant : Invariant files := invariant_empty.run operations
  obtain ⟨entries, found, -, -⟩ := invariant.exists_here
  refine ⟨invariant, ⟨_, list_eq found⟩, ?_, ?_⟩
  · intro name content valid
    exact ⟨_, (write_eq found name content).trans (if_pos (isValidName_iff.mpr valid))⟩
  · intro operation error failure
    exact invariant.exists_reason failure

end RegisterMachine.Files
