import RegisterMachine.Proofs.Files.Atlas

/-! # The history of a tree

An operation that succeeds puts an entry into the working directory or removes one from it, or
changes no directory at all. What a directory holds can be told from these deeds alone: each takes
the records of a directory a step further, and the directory lists them in the same order.
-/

namespace RegisterMachine.Files

/-! ## Listings -/

/-- The line of an entry after something was put under a name. -/
def Item.put (name : String) (kind : Kind) (item : Item) : Item :=
  if item.name = name then { item with kind } else item

@[simp] theorem Item.name_put (name : String) (kind : Kind) (item : Item) :
    (item.put name kind).name = item.name := by
  rw [put]
  split <;> rfl

def listing (entries : Entries) : List Item := entries.map fun entry => ⟨entry.1, entry.2.kind⟩

theorem names_listing (entries : Entries) :
    (listing entries).map Item.name = entries.map Prod.fst := by
  rw [listing, List.map_map]
  rfl

/-- A new name is listed at the end. -/
theorem listing_put_of_absent {name : String} {entries : Entries}
    (absent : name ∉ entries.map Prod.fst) (node : Node) :
    listing (put name node entries) = listing entries ++ [⟨name, node.kind⟩] := by
  induction entries with
  | nil => rfl
  | cons entry others ih =>
    rw [List.map_cons, List.mem_cons, not_or] at absent
    rw [put, if_neg (Ne.symm absent.1)]
    exact congrArg _ (ih absent.2)

private theorem listing_map_put_of_absent {name : String} {entries : Entries}
    (absent : name ∉ entries.map Prod.fst) (kind : Kind) :
    (listing entries).map (Item.put name kind) = listing entries := by
  rw [List.map_congr_left (g := id), List.map_id]
  intro item member
  have other : item.name ≠ name := by
    rintro rfl
    exact absent (names_listing entries ▸ List.mem_map_of_mem member)
  exact if_neg other

/-- A name that is there keeps its line, which shows what has been put there. -/
theorem listing_put_of_present {name : String} {entries : Entries}
    (distinct : (entries.map Prod.fst).Nodup) (present : name ∈ entries.map Prod.fst)
    (node : Node) :
    listing (put name node entries) = (listing entries).map (Item.put name node.kind) := by
  induction entries with
  | nil => contradiction
  | cons entry others ih =>
    rw [List.map_cons, List.nodup_cons] at distinct
    show _ = Item.put name node.kind ⟨entry.1, _⟩ :: (listing others).map _
    rw [put, Item.put]
    split
    · next same =>
      rw [listing_map_put_of_absent (same ▸ distinct.1)]
      exact congrArg (Item.mk · _ :: _) same.symm
    · next different =>
      have later := (List.mem_cons.mp present).resolve_left (Ne.symm different)
      exact congrArg _ (ih distinct.2 later)

private theorem listing_filter_of_absent {name : String} {entries : Entries}
    (absent : name ∉ entries.map Prod.fst) :
    (listing entries).filter (·.name ≠ name) = listing entries := by
  rw [List.filter_eq_self]
  intro item member
  rw [decide_eq_true_eq]
  rintro rfl
  exact absent (names_listing entries ▸ List.mem_map_of_mem member)

/-- A name that is dropped has no line any more. -/
theorem listing_drop {name : String} {entries : Entries}
    (distinct : (entries.map Prod.fst).Nodup) :
    listing (drop name entries) = (listing entries).filter (·.name ≠ name) := by
  induction entries with
  | nil => rfl
  | cons entry others ih =>
    rw [List.map_cons, List.nodup_cons] at distinct
    show _ = List.filter _ (⟨entry.1, _⟩ :: listing others)
    rw [drop, List.filter_cons]
    split
    · next same =>
      rw [if_neg (by simp [same]), listing_filter_of_absent (same ▸ distinct.1)]
    · next different =>
      rw [if_pos (by simp [different]), ← ih distinct.2]
      rfl

/-- A directory in the place of another is listed in the same way. -/
theorem listing_put_directory {name : String} {entries inner : Entries}
    (present : entries.lookup name = some (.directory inner)) (changed : Entries) :
    listing (put name (.directory changed) entries) = listing entries := by
  induction entries with
  | nil => contradiction
  | cons entry others ih =>
    rcases entry with ⟨first, stored⟩
    rw [put]
    split
    · next same =>
      obtain rfl : first = name := same
      rw [List.lookup_cons_self] at present
      cases present
      rfl
    · next different =>
      rw [List.lookup_cons, beq_false_of_ne (Ne.symm different)] at present
      exact congrArg (List.cons _) (ih present)

/-- A change of one name in the directory at a path shows in the listing of no other directory that
the path to does not lead through that name. -/
theorem listing_replaceAt {path : List String} {entries target changed : Entries} {name : String}
    (found : entriesAt path entries = .ok target)
    (elsewhere : ∀ other, other ≠ name → changed.lookup other = target.lookup other)
    {other : List String} (different : other ≠ path) (apart : ¬path ++ [name] <+: other) :
    (entriesAt other (replaceAt path entries changed)).map listing =
      (entriesAt other entries).map listing := by
  induction path generalizing entries other with
  | nil =>
    cases found
    cases other with
    | nil => contradiction
    | cons segment others =>
      have kept : segment ≠ name := by
        rintro rfl
        exact apart ⟨others, rfl⟩
      simp only [replaceAt, entriesAt, elsewhere segment kept]
  | cons first rest ih =>
    rw [entriesAt] at found
    split at found
    · next inner present =>
      simp only [replaceAt, present]
      cases other with
      | nil => exact congrArg Except.ok (listing_put_directory present _)
      | cons segment others =>
        by_cases same : segment = first
        · subst same
          have different : others ≠ rest := fun equal => different (equal ▸ rfl)
          have apart : ¬rest ++ [name] <+: others := by
            intro leads
            exact apart ((List.prefix_cons_inj segment).mpr leads)
          simp only [entriesAt, lookup_put_self, present]
          exact ih found different apart
        · simp only [entriesAt, lookup_put_of_ne same]
    · contradiction
    · contradiction

/-! ## Deeds -/

/-- What an operation does to the entries of a directory. -/
inductive Deed where
  | put (directory : List String) (name : String) (kind : Kind)
  | removed (directory : List String) (name : String)
  deriving DecidableEq, Repr

namespace Deed

def directory : Deed → List String
  | put directory _ _ | removed directory _ => directory

def name : Deed → String
  | put _ name _ | removed _ name => name

/-- The path of the entry that the deed is done to. -/
def place (deed : Deed) : List String := deed.directory ++ [deed.name]

end Deed

/-- The deed of an operation in a directory, if it does one. -/
def Operation.deed? (directory : List String) : Operation → Option Deed
  | makeDirectory name => some (.put directory name .directory)
  | write name _ => some (.put directory name .file)
  | remove name => some (.removed directory name)
  | changeDirectory _ | list | read _ => none

/-- The deed of an operation, which it does where it succeeds. -/
def deed? (files : Files) (operation : Operation) : Option Deed :=
  match files.perform operation with
  | .ok _ => operation.deed? files.path
  | .error _ => none

def deeds (files : Files) : List Operation → List Deed
  | [] => []
  | operation :: others =>
    (files.deed? operation).toList ++ deeds (files.after operation) others

/-- The listing of a directory after a deed that is done in it. -/
def Deed.relist (items : List Item) : Deed → List Item
  | put _ name kind =>
    if name ∈ items.map Item.name then items.map (Item.put name kind) else items ++ [⟨name, kind⟩]
  | removed _ name => items.filter (·.name ≠ name)

/-- How a deed changes the entries of the working directory. -/
structure Does (entries : Entries) (deed : Deed) (changed : Entries) : Prop where
  elsewhere : ∀ other, other ≠ deed.name → changed.lookup other = entries.lookup other
  bare : ∀ below inner, entriesAt (deed.name :: below) changed = .ok inner → inner = []
  listed : listing changed = deed.relist (listing entries)

variable {files : Files} {entries : Entries} {operation : Operation} {deed : Deed}

private theorem does_put (distinct : (entries.map Prod.fst).Nodup) (directory : List String)
    (name : String) {node : Node}
    (bare : ∀ below inner, entriesAt (name :: below) (put name node entries) = .ok inner →
      inner = []) :
    Does entries (.put directory name node.kind) (put name node entries) := by
  refine ⟨fun other different => lookup_put_of_ne different node entries, bare, ?_⟩
  rw [Deed.relist, names_listing]
  split
  · next present => exact listing_put_of_present distinct present node
  · next absent => exact listing_put_of_absent absent node

private theorem does_drop (distinct : (entries.map Prod.fst).Nodup) (directory : List String)
    (name : String) : Does entries (.removed directory name) (drop name entries) := by
  refine ⟨fun other different => lookup_drop_of_ne different entries, ?_, listing_drop distinct⟩
  intro below inner leads
  have absent : (drop name entries).lookup name = none := lookup_drop_self distinct
  rw [Deed.name, entriesAt, absent] at leads
  contradiction

/-- A fresh directory holds nothing, and a file is no directory. -/
theorem bare_directory (name : String) (entries : Entries) (below : List String) {inner : Entries}
    (leads : entriesAt (name :: below) (put name (.directory []) entries) = .ok inner) :
    inner = [] := by
  rw [entriesAt, lookup_put_self] at leads
  cases below with
  | nil =>
    cases leads
    rfl
  | cons segment below => contradiction

private theorem bare_file (name content : String) (entries : Entries) (below : List String)
    {inner : Entries}
    (leads : entriesAt (name :: below) (put name (.file content) entries) = .ok inner) :
    inner = [] := by
  rw [entriesAt, lookup_put_self] at leads
  contradiction

/-- An operation without a deed leaves the tree as it is. -/
theorem root_after_of_idle (idle : files.deed? operation = none) :
    (files.after operation).root = files.root := by
  rw [deed?] at idle
  rw [after]
  cases performed : files.perform operation with
  | error error => rfl
  | ok done =>
    rw [performed] at idle
    cases operation with
    | makeDirectory name | write name content | remove name => contradiction
    | changeDirectory name =>
      obtain ⟨changed, success, rfl⟩ := map_eq_ok_iff.mp performed
      exact root_changeDirectory success
    | list | read name =>
      obtain ⟨_, -, rfl⟩ := map_eq_ok_iff.mp performed
      rfl

/-- An operation with a deed does it in the working directory. -/
theorem exists_does (found : files.here = .ok entries) (distinct : (entries.map Prod.fst).Nodup)
    (done : files.deed? operation = some deed) :
    deed.directory = files.path ∧
      ∃ changed, files.after operation = files.replaceHere changed ∧ Does entries deed changed := by
  rw [deed?] at done
  rw [after]
  cases performed : files.perform operation with
  | error error =>
    rw [performed] at done
    contradiction
  | ok outcome =>
    rw [performed] at done
    cases operation with
    | changeDirectory name | list | read name => contradiction
    | makeDirectory name =>
      cases done
      obtain ⟨changed, success, rfl⟩ := map_eq_ok_iff.mp performed
      rw [makeDirectory_eq found] at success
      split at success
      · split at success
        · contradiction
        · cases success
          exact ⟨rfl, _, rfl, does_put distinct files.path name (bare_directory name entries)⟩
      · contradiction
    | write name content =>
      cases done
      obtain ⟨changed, success, rfl⟩ := map_eq_ok_iff.mp performed
      rw [write_eq found] at success
      split at success
      · cases success
        exact ⟨rfl, _, rfl, does_put distinct files.path name (bare_file name content entries)⟩
      · contradiction
    | remove name =>
      cases done
      obtain ⟨changed, success, rfl⟩ := map_eq_ok_iff.mp performed
      rw [remove_eq found] at success
      split at success
      · cases success
        exact ⟨rfl, _, rfl, does_drop distinct files.path name⟩
      · contradiction

/-! ## Records -/

/-- A line of a listing with the time at which its entry was created. -/
structure Record extends Item where
  born : Nat
  deriving DecidableEq, Repr

/-- The records of a directory after a deed that is done in it at a time. -/
def Deed.amend (time : Nat) (records : List Record) : Deed → List Record
  | put _ name kind =>
    if name ∈ records.map (·.name) then
      records.map fun record => { record with toItem := record.toItem.put name kind }
    else records ++ [⟨⟨name, kind⟩, time⟩]
  | removed _ name => records.filter (·.name ≠ name)

/-- The records of a directory after a deed that is done somewhere at a time. A deed that is done to
the directory itself, or to one that it lies in, leaves none. -/
def Deed.enter (directory : List String) (time : Nat) (records : List Record) (deed : Deed) :
    List Record :=
  if deed.place <+: directory then []
  else if deed.directory = directory then deed.amend time records
  else records

/-- What a directory holds according to the deeds that have been done. -/
def chronicle (directory : List String) (history : List Deed) : List Record :=
  history.zipIdx.foldl (fun records entry => entry.1.enter directory entry.2 records) []

theorem chronicle_append (directory : List String) (history : List Deed) (deed : Deed) :
    chronicle directory (history ++ [deed]) =
      deed.enter directory history.length (chronicle directory history) := by
  simp [chronicle, List.zipIdx_append]

/-- Whether every directory of the tree is listed as a history tells. -/
def Tells (history : List Deed) (files : Files) : Prop :=
  ∀ directory entries, entriesAt directory files.root = .ok entries →
    listing entries = (chronicle directory history).map Record.toItem

private theorem map_amend (time : Nat) (records : List Record) (deed : Deed) :
    (deed.amend time records).map Record.toItem = deed.relist (records.map Record.toItem) := by
  cases deed with
  | put directory name kind =>
    have names : (records.map Record.toItem).map Item.name = records.map (·.name) := by
      rw [List.map_map]
      rfl
    rw [Deed.amend, Deed.relist, names]
    split
    · simp only [List.map_map]
      rfl
    · rw [List.map_append]
      rfl
  | removed directory name =>
    rw [Deed.amend, Deed.relist, List.filter_map]
    rfl

/-- A deed in the working directory takes a history a step further. -/
theorem Tells.replaceHere {history : List Deed} {changed : Entries} (tells : Tells history files)
    (found : files.here = .ok entries) (acts : deed.directory = files.path)
    (does : Does entries deed changed) :
    Tells (history ++ [deed]) (files.replaceHere changed) := by
  intro directory inner leads
  rw [chronicle_append, Deed.enter]
  have there := entriesAt_replaceAt found changed
  split
  · next renewed =>
    obtain ⟨below, rfl⟩ := renewed
    rw [Deed.place, acts, List.append_assoc, Files.replaceHere, entriesAt_append, there] at leads
    rw [does.bare below inner leads]
    rfl
  · next apart =>
    rw [Deed.place, acts] at apart
    split
    · next here =>
      obtain rfl : files.path = directory := acts.symm.trans here
      obtain rfl : changed = inner := Except.ok.inj (there.symm.trans leads)
      rw [does.listed, tells _ _ found, map_amend]
    · next away =>
      have same := listing_replaceAt found does.elsewhere (acts ▸ Ne.symm away) apart
      rw [show entriesAt directory (replaceAt _ _ changed) = _ from leads] at same
      obtain ⟨earlier, before, listed⟩ := map_eq_ok_iff.mp same.symm
      rw [← listed]
      exact tells directory earlier before

/-- Every operation takes the history a step further. -/
theorem Tells.after {history : List Deed} (tells : Tells history files)
    (invariant : Invariant files) (operation : Operation) :
    Tells (history ++ (files.deed? operation).toList) (files.after operation) := by
  cases done : files.deed? operation with
  | none =>
    rw [Option.toList_none, List.append_nil, Tells, root_after_of_idle done]
    exact tells
  | some deed =>
    obtain ⟨entries, found, -, ⟨distinct, -, -⟩⟩ := invariant.exists_here
    obtain ⟨acts, changed, after, does⟩ := exists_does found distinct done
    rw [after]
    exact tells.replaceHere found acts does

theorem Tells.run {history : List Deed} (tells : Tells history files) (invariant : Invariant files)
    (operations : List Operation) :
    Tells (history ++ files.deeds operations) (files.run operations) := by
  induction operations generalizing files history with
  | nil => rwa [deeds, List.append_nil]
  | cons operation others ih =>
    rw [deeds, ← List.append_assoc]
    exact ih (tells.after invariant operation) (invariant.after operation)

/-- The empty tree is listed as no history tells. -/
theorem tells_empty : Tells [] {} := by
  intro directory entries leads
  cases directory with
  | nil =>
    cases leads
    rfl
  | cons segment others => contradiction

end RegisterMachine.Files
