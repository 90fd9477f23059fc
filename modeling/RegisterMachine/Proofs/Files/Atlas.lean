import RegisterMachine.Proofs.Files.InPlace
import RegisterMachine.Proofs.Files.Invariant

/-! # The tree as a map

Seen from outside, the tree is a map from absolute paths to what stands there, with a working path.
An operation that succeeds plants one object in the working directory, in the place of everything at
that path and below it, or uproots what stands there, or moves the working path; every other path
leads where it led before. The answers, too, can be read off the map.
-/

namespace RegisterMachine.Files

inductive Object where
  | directory
  | file (content : String)
  deriving DecidableEq, Repr

/-- What a node shows of itself, whatever a directory holds. -/
def Node.object : Node → Object
  | .directory _ => .directory
  | .file content => .file content

def Object.kind : Object → Kind
  | directory => .directory
  | file _ => .file

/-- The node that a path leads to, entry after entry. -/
def nodeAt : List String → Node → Option Node
  | [], node => some node
  | segment :: others, .directory entries => (entries.lookup segment).bind (nodeAt others)
  | _ :: _, .file _ => none

/-- A map from absolute paths to what stands there, with a working path. -/
@[ext]
structure Atlas where
  object? : List String → Option Object
  path : List String

/-- The map that a tree stands for. -/
def atlas (files : Files) : Atlas where
  object? path := (nodeAt path (.directory files.root)).map Node.object
  path := files.path

instance : DecidablePred IsEntryName := fun _ => decidable_of_iff _ isValidName_iff

namespace Atlas

/-- The path of a name in the working directory. -/
def place (atlas : Atlas) (name : String) : List String := atlas.path ++ [name]

/-- The map with an object, or nothing, at a path, and with nothing below it. -/
def plant (atlas : Atlas) (place : List String) (object : Option Object) : Atlas :=
  { atlas with object? := fun path =>
      if path = place then object else if place <+: path then none else atlas.object? path }

/-- Makes an empty directory where nothing stands. -/
def makeDirectory (atlas : Atlas) (name : String) : Except Error Atlas :=
  if ¬IsEntryName name then .error (.invalidName name)
  else if (atlas.object? (atlas.place name)).isSome then .error (.alreadyExists name)
  else .ok (atlas.plant (atlas.place name) (some .directory))

/-- Moves the working path, and nothing else. -/
def changeDirectory (atlas : Atlas) (name : String) : Except Error Atlas :=
  if name = ".." then .ok { atlas with path := atlas.path.dropLast }
  else if name = "." then .ok atlas
  else if ¬IsEntryName name then .error (.invalidName name)
  else
    match atlas.object? (atlas.place name) with
    | some .directory => .ok { atlas with path := atlas.place name }
    | some (.file _) => .error (.notADirectory name)
    | none => .error (.notFound name)

/-- Makes a file, whatever stands in its place. -/
def write (atlas : Atlas) (name content : String) : Except Error Atlas :=
  if ¬IsEntryName name then .error (.invalidName name)
  else .ok (atlas.plant (atlas.place name) (some (.file content)))

def read (atlas : Atlas) (name : String) : Except Error String :=
  match atlas.object? (atlas.place name) with
  | some (.file content) => .ok content
  | some .directory => .error (.isADirectory name)
  | none => .error (.notFound name)

/-- Uproots whatever stands in the place. -/
def remove (atlas : Atlas) (name : String) : Except Error Atlas :=
  if (atlas.object? (atlas.place name)).isSome then .ok (atlas.plant (atlas.place name) none)
  else .error (.notFound name)

end Atlas

/-! ## Following paths -/

private theorem nodeAt_append (path below : List String) (node : Node) :
    nodeAt (path ++ below) node = (nodeAt path node).bind (nodeAt below) := by
  induction path generalizing node with
  | nil => rfl
  | cons segment others ih =>
    cases node with
    | file content => rfl
    | directory entries =>
      simp only [List.cons_append, nodeAt, Option.bind_assoc]
      congr 1
      funext inner
      exact ih inner

private theorem nodeAt_of_entriesAt {path : List String} {entries target : Entries}
    (found : entriesAt path entries = .ok target) :
    nodeAt path (.directory entries) = some (.directory target) := by
  induction path generalizing entries with
  | nil =>
    cases found
    rfl
  | cons segment others ih =>
    rw [entriesAt] at found
    split at found
    · next inner present =>
      rw [nodeAt, present, Option.bind_some]
      exact ih found
    · contradiction
    · contradiction

/-- A name of the working directory is looked up there. -/
theorem nodeAt_place {path : List String} {entries target : Entries}
    (found : entriesAt path entries = .ok target) (name : String) (below : List String) :
    nodeAt (path ++ name :: below) (.directory entries) =
      (target.lookup name).bind (nodeAt below) := by
  rw [nodeAt_append, nodeAt_of_entriesAt found, Option.bind_some, nodeAt]

/-- Only a directory has anything below it. -/
theorem exists_directory_of_nodeAt {path : List String} {segment : String} {below : List String}
    {node found : Node} (leads : nodeAt (path ++ segment :: below) node = some found) :
    ∃ entries, nodeAt path node = some (.directory entries) := by
  rw [nodeAt_append, Option.bind_eq_some_iff] at leads
  obtain ⟨middle, first, rest⟩ := leads
  cases middle with
  | file content => contradiction
  | directory entries => exact ⟨entries, first⟩

/-! ## Changing the working directory -/

/-- A change of one name in the directory at a path shows at no path that does not lead through that
name. -/
theorem object_replaceAt {path : List String} {entries target changed : Entries} {name : String}
    (found : entriesAt path entries = .ok target)
    (elsewhere : ∀ other, other ≠ name → changed.lookup other = target.lookup other)
    {other : List String} (apart : ¬path ++ [name] <+: other) :
    (nodeAt other (.directory (replaceAt path entries changed))).map Node.object =
      (nodeAt other (.directory entries)).map Node.object := by
  induction path generalizing entries other with
  | nil =>
    cases found
    cases other with
    | nil => rfl
    | cons segment others =>
      have different : segment ≠ name := by
        rintro rfl
        exact apart ⟨others, rfl⟩
      simp only [replaceAt, nodeAt, elsewhere segment different]
  | cons first rest ih =>
    cases other with
    | nil => rfl
    | cons segment others =>
      rw [entriesAt] at found
      split at found
      · next inner present =>
        simp only [replaceAt, present, nodeAt]
        by_cases same : segment = first
        · subst same
          have apart : ¬rest ++ [name] <+: others := by
            intro leads
            exact apart ((List.prefix_cons_inj segment).mpr leads)
          rw [lookup_put_self, present]
          exact ih found apart
        · rw [lookup_put_of_ne same]
      · contradiction
      · contradiction

variable {files : Files} {entries : Entries}

/-- A change of one name in the working directory that leaves nothing below it plants what is now
found under that name. -/
theorem atlas_replaceHere (found : files.here = .ok entries) (changed : Entries) (name : String)
    (elsewhere : ∀ other, other ≠ name → changed.lookup other = entries.lookup other)
    (bare : ∀ segment below, (changed.lookup name).bind (nodeAt (segment :: below)) = none) :
    (files.replaceHere changed).atlas =
      files.atlas.plant (files.atlas.place name) ((changed.lookup name).map Node.object) := by
  have there := entriesAt_replaceAt found changed
  ext path : 2
  · show (nodeAt path (.directory (replaceAt files.path files.root changed))).map Node.object =
      if path = files.path ++ [name] then _ else if files.path ++ [name] <+: path then none else _
    split
    · next same =>
      rw [same, nodeAt_place there]
      cases changed.lookup name <;> rfl
    split
    · next other leads =>
      obtain ⟨below, rfl⟩ := leads
      cases below with
      | nil => simp at other
      | cons segment below =>
        rw [List.append_assoc, List.singleton_append, nodeAt_place there, bare]
        rfl
    · next apart => exact object_replaceAt found elsewhere apart
  · rfl

private theorem object?_place (found : files.here = .ok entries) (name : String) :
    files.atlas.object? (files.atlas.place name) = (entries.lookup name).map Node.object := by
  show (nodeAt (files.path ++ [name]) _).map Node.object = _
  rw [nodeAt_place found]
  cases entries.lookup name <;> rfl

/-! ## Operations -/

private theorem atlas_put (found : files.here = .ok entries) {node : Node} (name : String)
    (bare : ∀ segment below, nodeAt (segment :: below) node = none) :
    (files.replaceHere (put name node entries)).atlas =
      files.atlas.plant (files.atlas.place name) (some node.object) := by
  have self := lookup_put_self name node entries
  have planted := atlas_replaceHere found (put name node entries) name
    (fun other different => lookup_put_of_ne different node entries)
    (fun segment below => by rw [self, Option.bind_some, bare])
  rwa [self] at planted

private theorem atlas_drop (found : files.here = .ok entries) (orderly : Orderly entries)
    (name : String) :
    (files.replaceHere (drop name entries)).atlas =
      files.atlas.plant (files.atlas.place name) none := by
  obtain ⟨distinct, -, -⟩ := orderly
  have self : (drop name entries).lookup name = none := lookup_drop_self distinct
  have planted := atlas_replaceHere found (drop name entries) name
    (fun other different => lookup_drop_of_ne different entries)
    (fun segment below => by rw [self, Option.bind_none])
  rwa [self] at planted

namespace Invariant

variable (invariant : Invariant files)
include invariant

private theorem atlas_makeDirectory (name : String) :
    (files.makeDirectory name).map Files.atlas = files.atlas.makeDirectory name := by
  obtain ⟨entries, found, -, -⟩ := invariant.exists_here
  rw [makeDirectory_eq found, Atlas.makeDirectory, object?_place found]
  by_cases valid : IsEntryName name
  · rw [if_pos (isValidName_iff.mpr valid), if_neg (not_not_intro valid)]
    cases entries.lookup name with
    | some node => rfl
    | none => exact congrArg Except.ok (atlas_put found name fun _ _ => rfl)
  · rw [if_neg (mt isValidName_iff.mp valid), if_pos valid]
    rfl

private theorem atlas_changeDirectory (name : String) :
    (files.changeDirectory name).map Files.atlas = files.atlas.changeDirectory name := by
  obtain ⟨entries, found, -, -⟩ := invariant.exists_here
  rw [changeDirectory_eq found, Atlas.changeDirectory, object?_place found]
  by_cases up : name = ".."
  · rw [if_pos up, if_pos up]
    rfl
  by_cases stay : name = "."
  · rw [if_neg up, if_neg up, if_pos stay, if_pos stay]
    rfl
  rw [if_neg up, if_neg up, if_neg stay, if_neg stay]
  by_cases valid : IsEntryName name
  · rw [if_pos (isValidName_iff.mpr valid), if_neg (not_not_intro valid)]
    rcases entries.lookup name with _ | content | inner <;> rfl
  · rw [if_neg (mt isValidName_iff.mp valid), if_pos valid]
    rfl

private theorem atlas_write (name content : String) :
    (files.write name content).map Files.atlas = files.atlas.write name content := by
  obtain ⟨entries, found, -, -⟩ := invariant.exists_here
  rw [write_eq found, Atlas.write]
  by_cases valid : IsEntryName name
  · rw [if_pos (isValidName_iff.mpr valid), if_neg (not_not_intro valid)]
    exact congrArg Except.ok (atlas_put found name fun _ _ => rfl)
  · rw [if_neg (mt isValidName_iff.mp valid), if_pos valid]
    rfl

private theorem atlas_read (name : String) : files.read name = files.atlas.read name := by
  obtain ⟨entries, found, -, -⟩ := invariant.exists_here
  rw [read_eq found, Atlas.read, object?_place found]
  rcases entries.lookup name with _ | content | inner <;> rfl

private theorem atlas_remove (name : String) :
    (files.remove name).map Files.atlas = files.atlas.remove name := by
  obtain ⟨entries, found, -, orderly⟩ := invariant.exists_here
  rw [remove_eq found, Atlas.remove, object?_place found]
  cases entries.lookup name with
  | some node => exact congrArg Except.ok (atlas_drop found orderly name)
  | none => rfl

/-- Listing shows what stands in the working directory. -/
theorem atlas_list :
    ∃ items, files.list = .ok items ∧ ∀ name kind, (⟨name, kind⟩ : Item) ∈ items ↔
      (files.atlas.object? (files.atlas.place name)).map Object.kind = some kind := by
  obtain ⟨entries, found, -, ⟨distinct, -, -⟩⟩ := invariant.exists_here
  refine ⟨_, list_eq found, ?_⟩
  intro name kind
  have kind_object (node : Node) : node.object.kind = node.kind := by cases node <;> rfl
  rw [object?_place found, List.mem_map]
  constructor
  · rintro ⟨⟨other, node⟩, member, ⟨⟩⟩
    rw [lookup_of_mem distinct member, Option.map_some, Option.map_some, kind_object]
  · intro shown
    cases present : entries.lookup name with
    | none =>
      rw [present] at shown
      contradiction
    | some node =>
      rw [present, Option.map_some, Option.map_some, kind_object] at shown
      cases shown
      exact ⟨(name, node), mem_of_lookup present, rfl⟩

end Invariant

/-- Entering a directory leaves the tree as it is. -/
theorem root_changeDirectory {changed : Files} {name : String}
    (success : files.changeDirectory name = .ok changed) : changed.root = files.root := by
  rw [Files.changeDirectory] at success
  split at success
  · cases success
    rfl
  split at success
  · cases success
    rfl
  obtain ⟨_, -, success⟩ := bind_eq_ok_iff.mp success
  obtain ⟨entries, -, success⟩ := bind_eq_ok_iff.mp success
  split at success <;> cases success
  rfl

/-- Only directories have anything below them. -/
theorem object?_of_below (files : Files) {path below : List String} (proper : below ≠ [])
    {object : Object} (stands : files.atlas.object? (path ++ below) = some object) :
    files.atlas.object? path = some .directory := by
  cases below with
  | nil => contradiction
  | cons segment below =>
    obtain ⟨node, leads, -⟩ := Option.map_eq_some_iff.mp stands
    obtain ⟨entries, directory⟩ := exists_directory_of_nodeAt leads
    exact Option.map_eq_some_iff.mpr ⟨_, directory, rfl⟩

/-- Whatever was done to the empty tree, each operation does to the map that the tree stands for
what it does to the tree, with the same answer: making a directory, writing and removing plant or
uproot one object with all below it and leave every other path and the working path alone, and
entering moves the working path alone. In the map nothing stands below anything but a directory.
Carried out step by step on a tree that is changed in place, an operation comes to the same tree and
answer; one that fails, reading and listing leave that tree as it was. -/
theorem run_empty_refines (operations : List Operation) :
    let files := run {} operations
    (∀ name, (files.makeDirectory name).map atlas = files.atlas.makeDirectory name) ∧
    (∀ name, (files.changeDirectory name).map atlas = files.atlas.changeDirectory name) ∧
    (∀ name content, (files.write name content).map atlas = files.atlas.write name content) ∧
    (∀ name, files.read name = files.atlas.read name) ∧
    (∀ name, (files.remove name).map atlas = files.atlas.remove name) ∧
    (∃ items, files.list = .ok items ∧ ∀ name kind, ⟨name, kind⟩ ∈ items ↔
      (files.atlas.object? (files.atlas.place name)).map Object.kind = some kind) ∧
    (∀ path below object, below ≠ [] → files.atlas.object? (path ++ below) = some object →
      files.atlas.object? path = some .directory) ∧
    (∀ name changed, files.changeDirectory name = .ok changed → changed.root = files.root) ∧
    (∀ operation, stepwise operation files =
      ((files.perform operation).map Prod.snd, files.after operation)) ∧
    (∀ operation error, (stepwise operation files).1 = .error error →
      (stepwise operation files).2 = files) ∧
    (∀ name, (stepwise (.read name) files).2 = files) ∧
    (stepwise .list files).2 = files := by
  intro files
  have invariant : Invariant files := invariant_empty.run operations
  refine ⟨invariant.atlas_makeDirectory, invariant.atlas_changeDirectory, invariant.atlas_write,
    invariant.atlas_read, invariant.atlas_remove, invariant.atlas_list,
    fun _ _ _ proper stands => files.object?_of_below proper stands,
    fun _ _ success => root_changeDirectory success, files.stepwise_apply, ?_, ?_, ?_⟩
  · intro operation error failure
    exact files.stepwise_of_error failure
  · intro name
    rw [stepwise_apply, Files.after, perform]
    cases files.read name <;> rfl
  · rw [stepwise_apply, Files.after, perform]
    cases files.list <;> rfl

end RegisterMachine.Files
