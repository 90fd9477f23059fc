import RegisterMachine.Files
import RegisterMachine.Proofs.Lookup

/-! # Operations by the working directory

An operation reads the directory that the working path leads to and puts a changed one in its place.
Changing the directory at a path is changing its entries and replacing them at that path, and so
each operation is an equation in the entries of the working directory alone.
-/

namespace RegisterMachine.Files

/-! ## Entries of one directory -/

theorem lookup_put_self (name : String) (node : Node) (entries : Entries) :
    (put name node entries).lookup name = some node := by
  induction entries with
  | nil => simp [put]
  | cons entry others ih =>
    rw [put]
    split
    · simp
    · next different => rw [List.lookup_cons, beq_false_of_ne (Ne.symm different), ih]

theorem lookup_put_of_ne {name other : String} (different : other ≠ name) (node : Node)
    (entries : Entries) : (put name node entries).lookup other = entries.lookup other := by
  induction entries with
  | nil => simp [put, different]
  | cons entry others ih =>
    rcases entry with ⟨first, stored⟩
    rw [put]
    split
    · next same => simp [show first = name from same, List.lookup_cons, beq_false_of_ne different]
    · simp [List.lookup_cons, ih]

theorem lookup_drop_of_ne {name other : String} (different : other ≠ name) (entries : Entries) :
    (drop name entries).lookup other = entries.lookup other := by
  induction entries with
  | nil => rfl
  | cons entry others ih =>
    rcases entry with ⟨first, stored⟩
    rw [drop]
    split
    · next same => simp [show first = name from same, List.lookup_cons, beq_false_of_ne different]
    · simp [List.lookup_cons, ih]

/-- Where names are distinct, dropping the first entry of a name leaves none. -/
theorem lookup_drop_self {name : String} {entries : Entries}
    (distinct : (entries.map Prod.fst).Nodup) : (drop name entries).lookup name = none := by
  induction entries with
  | nil => rfl
  | cons entry others ih =>
    obtain ⟨absent, rest⟩ := List.nodup_cons.mp distinct
    rw [drop]
    split
    · next same => exact lookup_eq_none_iff.mpr (same ▸ absent)
    · next different => rw [List.lookup_cons, beq_false_of_ne (Ne.symm different), ih rest]

/-- Putting a node under a name of the directory keeps all names, and otherwise adds one at the
end. -/
theorem names_put (name : String) (node : Node) (entries : Entries) :
    (put name node entries).map Prod.fst =
      if name ∈ entries.map Prod.fst then entries.map Prod.fst
      else entries.map Prod.fst ++ [name] := by
  induction entries with
  | nil => simp [put]
  | cons entry others ih =>
    rw [put]
    split
    · next same => simp [same]
    · next different =>
      simp only [List.map_cons, ih, List.mem_cons, Ne.symm different, false_or]
      split <;> rfl

/-- An entry after a node was put is that node or was there before. -/
theorem mem_of_mem_put {name : String} {node : Node} {entries : Entries} {entry : String × Node}
    (member : entry ∈ put name node entries) : entry = (name, node) ∨ entry ∈ entries := by
  induction entries with
  | nil => simpa [put] using member
  | cons first others ih =>
    rw [put] at member
    split at member
    · rcases List.mem_cons.mp member with equal | later
      · exact .inl equal
      · exact .inr (List.mem_cons_of_mem _ later)
    · rcases List.mem_cons.mp member with equal | later
      · exact .inr (equal ▸ List.mem_cons_self)
      · exact (ih later).imp_right (List.mem_cons_of_mem _)

theorem drop_sublist (name : String) (entries : Entries) :
    (drop name entries).Sublist entries := by
  induction entries with
  | nil => exact .slnil
  | cons entry others ih =>
    rw [drop]
    split
    · exact List.sublist_cons_self _ _
    · exact ih.cons_cons _

/-! ## The directory at a path -/

/-- The tree with other entries in the directory at a path. -/
def replaceAt : List String → Entries → Entries → Entries
  | [], _, changed => changed
  | segment :: others, entries, changed =>
    match entries.lookup segment with
    | some (.directory inner) => put segment (.directory (replaceAt others inner changed)) entries
    | _ => entries

theorem entriesAt_append (path others : List String) (entries : Entries) :
    entriesAt (path ++ others) entries = (entriesAt path entries).bind (entriesAt others) := by
  induction path generalizing entries with
  | nil => rfl
  | cons segment rest ih =>
    simp only [List.cons_append, entriesAt]
    split
    · exact ih _
    · rfl
    · rfl

/-- Changing a directory is changing its entries and replacing them. -/
theorem changeAt_eq {path : List String} {entries target : Entries}
    (found : entriesAt path entries = .ok target) (change : Entries → Except Error Entries) :
    changeAt change path entries = (change target).map (replaceAt path entries) := by
  induction path generalizing entries with
  | nil =>
    cases found
    rw [changeAt]
    cases change target <;> rfl
  | cons segment others ih =>
    simp only [entriesAt] at found
    split at found
    · next inner present =>
      rw [changeAt]
      simp only [present, ih found]
      cases change target with
      | error error => rfl
      | ok changed => simp [Except.map, replaceAt, present]
    · contradiction
    · contradiction

/-- The replaced entries are the ones found at the path afterwards. -/
theorem entriesAt_replaceAt {path : List String} {entries target : Entries}
    (found : entriesAt path entries = .ok target) (changed : Entries) :
    entriesAt path (replaceAt path entries changed) = .ok changed := by
  induction path generalizing entries with
  | nil => rfl
  | cons segment others ih =>
    simp only [entriesAt] at found
    split at found
    · next inner present =>
      simp only [replaceAt, present, entriesAt, lookup_put_self]
      exact ih found
    · contradiction
    · contradiction

/-! ## Operations -/

section Operations

variable {files : Files} {entries : Entries}

/-- The tree with other entries in the working directory. -/
def replaceHere (files : Files) (changed : Entries) : Files :=
  { files with root := replaceAt files.path files.root changed }

theorem changeHere_eq (found : files.here = .ok entries)
    (change : Entries → Except Error Entries) :
    files.changeHere change = (change entries).map files.replaceHere := by
  rw [changeHere, changeAt_eq found]
  cases change entries <;> rfl

theorem makeDirectory_eq (found : files.here = .ok entries) (name : String) :
    files.makeDirectory name =
      if isValidName name then
        match entries.lookup name with
        | some _ => .error (.alreadyExists name)
        | none => .ok (files.replaceHere (put name (.directory []) entries))
      else .error (.invalidName name) := by
  rw [makeDirectory, checkName]
  split
  · change files.changeHere _ = _
    rw [changeHere_eq found]
    cases entries.lookup name <;> rfl
  · rfl

theorem changeDirectory_eq (found : files.here = .ok entries) (name : String) :
    files.changeDirectory name =
      if name = ".." then .ok { files with path := files.path.dropLast }
      else if name = "." then .ok files
      else if isValidName name then
        match entries.lookup name with
        | some (.directory _) => .ok { files with path := files.path ++ [name] }
        | some (.file _) => .error (.notADirectory name)
        | none => .error (.notFound name)
      else .error (.invalidName name) := by
  rw [changeDirectory, found, checkName]
  by_cases valid : isValidName name
  · simp only [valid, ↓reduceIte]
    rfl
  · simp only [valid]
    rfl

theorem write_eq (found : files.here = .ok entries) (name content : String) :
    files.write name content =
      if isValidName name then .ok (files.replaceHere (put name (.file content) entries))
      else .error (.invalidName name) := by
  rw [write, checkName]
  split
  · change files.changeHere _ = _
    rw [changeHere_eq found]
    rfl
  · rfl

theorem read_eq (found : files.here = .ok entries) (name : String) :
    files.read name =
      match entries.lookup name with
      | some (.file content) => .ok content
      | some (.directory _) => .error (.isADirectory name)
      | none => .error (.notFound name) := by
  rw [read, found]
  rfl

theorem remove_eq (found : files.here = .ok entries) (name : String) :
    files.remove name =
      match entries.lookup name with
      | some _ => .ok (files.replaceHere (drop name entries))
      | none => .error (.notFound name) := by
  rw [remove, changeHere_eq found]
  cases entries.lookup name <;> rfl

theorem list_eq (found : files.here = .ok entries) :
    files.list = .ok (entries.map fun entry => ⟨entry.1, entry.2.kind⟩) := by
  rw [list, found]
  rfl

end Operations

end RegisterMachine.Files
