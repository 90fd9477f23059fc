import Mathlib.Data.List.Induction
import RegisterMachine.Proofs.Files.History

/-! # Listings in the order of creation

An entry is created when something is put under a name that does not stand, and it stands until it
is removed or its directory, or one above it, is made, overwritten or removed. A directory lists the
entries that stand in it, ordered by the time of their creation.
-/

namespace RegisterMachine.Files

/-! ## Entries through time -/

/-- Whether an entry of a directory does not outlive a deed. -/
def Deed.Clears (directory : List String) (name : String) (deed : Deed) : Prop :=
  deed.place <+: directory ∨ deed = .removed directory name

/-- Where the directory stays, only the removal of the entry clears it. -/
theorem Deed.clears_iff {deed : Deed} {directory : List String} {name : String}
    (apart : ¬deed.place <+: directory) :
    deed.Clears directory name ↔ deed = .removed directory name :=
  or_iff_right apart

/-- What is put into a directory clears none of its entries. -/
theorem Deed.not_clears_put {directory : List String} {name : String} {kind : Kind}
    (apart : ¬(put directory name kind).place <+: directory) (other : String) :
    ¬(put directory name kind).Clears directory other := by
  rw [clears_iff apart]
  exact nofun

/-- Entries of one directory are told apart by their names. -/
theorem Deed.place_ne {deed : Deed} {name : String} (different : name ≠ deed.name) :
    deed.place ≠ deed.directory ++ [name] := by
  intro same
  exact different (List.singleton_inj.mp (List.append_cancel_left same)).symm

/-- Something has been put into a directory at a time, and its entry has stood since. -/
structure PutAt (history : List Deed) (directory : List String) (name : String) (kind : Kind)
    (time : Nat) : Prop where
  put : history[time]? = some (.put directory name kind)
  kept : ∀ later ∈ history.drop (time + 1), ¬later.Clears directory name

/-- Whether a directory has an entry of the name in the end. -/
def Stands (history : List Deed) (directory : List String) (name : String) : Prop :=
  ∃ kind time, PutAt history directory name kind time

/-- An entry that stands in the end has been created at a time, where it did not stand before. -/
structure Born (history : List Deed) (directory : List String) (name : String) (time : Nat) :
    Prop where
  put : ∃ kind, PutAt history directory name kind time
  fresh : ¬Stands (history.take time) directory name

/-- What stands in the end under a name is of the kind that has been put there last. -/
def Holds (history : List Deed) (directory : List String) (name : String) (kind : Kind) : Prop :=
  ∃ time, PutAt history directory name kind time ∧
    ∀ later ∈ history.drop (time + 1), later.place ≠ directory ++ [name]

section Later

variable {history : List Deed} {deed : Deed} {directory : List String} {name : String} {kind : Kind}
  {time : Nat}

private theorem PutAt.time_lt (put : PutAt history directory name kind time) :
    time < history.length :=
  (List.getElem?_eq_some_iff.mp put.put).1

private theorem drop_append_of_lt (early : time < history.length) (deed : Deed) :
    (history ++ [deed]).drop (time + 1) = history.drop (time + 1) ++ [deed] :=
  List.drop_append_of_le_length early

/-- What has been put at a time stays put through a deed that does not clear it, or is put by the
deed. -/
theorem putAt_append_iff :
    PutAt (history ++ [deed]) directory name kind time ↔
      (PutAt history directory name kind time ∧ ¬deed.Clears directory name) ∨
        (time = history.length ∧ deed = .put directory name kind) := by
  constructor
  · rintro ⟨put, kept⟩
    rcases Nat.lt_or_ge time history.length with early | late
    · rw [drop_append_of_lt early, List.forall_mem_append, List.forall_mem_singleton] at kept
      rw [List.getElem?_append_left early] at put
      exact .inl ⟨⟨put, kept.1⟩, kept.2⟩
    · rw [List.getElem?_append_right late, List.getElem?_singleton] at put
      split at put
      · next last => exact .inr ⟨by omega, Option.some.inj put⟩
      · contradiction
  · rintro (⟨put, outlives⟩ | ⟨rfl, rfl⟩)
    · refine ⟨(List.getElem?_append_left put.time_lt).trans put.put, ?_⟩
      rw [drop_append_of_lt put.time_lt, List.forall_mem_append, List.forall_mem_singleton]
      exact ⟨put.kept, outlives⟩
    · refine ⟨List.getElem?_concat_length, ?_⟩
      rw [List.drop_of_length_le (by simp)]
      exact List.forall_mem_nil _

/-- An entry that stands after a deed outlives it or is put by it. -/
theorem stands_append_iff :
    Stands (history ++ [deed]) directory name ↔
      (Stands history directory name ∧ ¬deed.Clears directory name) ∨
        ∃ kind, deed = .put directory name kind := by
  simp only [Stands, putAt_append_iff]
  constructor
  · rintro ⟨kind, time, ⟨put, outlives⟩ | ⟨-, same⟩⟩
    · exact .inl ⟨⟨kind, time, put⟩, outlives⟩
    · exact .inr ⟨kind, same⟩
  · rintro (⟨⟨kind, time, put⟩, outlives⟩ | ⟨kind, same⟩)
    · exact ⟨kind, time, .inl ⟨put, outlives⟩⟩
    · exact ⟨kind, history.length, .inr ⟨rfl, same⟩⟩

private theorem Born.time_lt (born : Born history directory name time) : time < history.length := by
  obtain ⟨kind, put⟩ := born.put
  exact put.time_lt

/-- An entry that outlives a deed is as old as before. -/
theorem Born.append (born : Born history directory name time)
    (outlives : ¬deed.Clears directory name) : Born (history ++ [deed]) directory name time := by
  obtain ⟨kind, put⟩ := born.put
  refine ⟨⟨kind, putAt_append_iff.mpr (.inl ⟨put, outlives⟩)⟩, ?_⟩
  rw [List.take_append_of_le_length (Nat.le_of_lt born.time_lt)]
  exact born.fresh

/-- What is put under a name that does not stand is born with that deed. -/
theorem born_last (fresh : ¬Stands history directory name) (kind : Kind) :
    Born (history ++ [.put directory name kind]) directory name history.length := by
  refine ⟨⟨kind, putAt_append_iff.mpr (.inr ⟨rfl, rfl⟩)⟩, ?_⟩
  rwa [List.take_left]

/-- An entry is born once only. -/
theorem Born.le {other : Nat} (born : Born history directory name time)
    (again : Born history directory name other) : other ≤ time := by
  by_contra later
  obtain ⟨kind, put, kept⟩ := born.put
  refine again.fresh ⟨kind, time, ?_, ?_⟩
  · rw [List.getElem?_take_of_lt (by omega), put]
  · intro deed member
    rw [List.drop_take] at member
    exact kept deed (List.mem_of_mem_take member)

private theorem Holds.stands (holds : Holds history directory name kind) :
    Stands history directory name := by
  obtain ⟨time, put, -⟩ := holds
  exact ⟨kind, time, put⟩

/-- An entry that outlives a deed and is not put by it holds what it held before. -/
theorem Holds.append (holds : Holds history directory name kind)
    (outlives : ¬deed.Clears directory name) (other : deed.place ≠ directory ++ [name]) :
    Holds (history ++ [deed]) directory name kind := by
  obtain ⟨time, put, last⟩ := holds
  refine ⟨time, putAt_append_iff.mpr (.inl ⟨put, outlives⟩), ?_⟩
  rw [drop_append_of_lt put.time_lt, List.forall_mem_append, List.forall_mem_singleton]
  exact ⟨last, other⟩

private theorem holds_last (history : List Deed) (directory : List String) (name : String)
    (kind : Kind) :
    Holds (history ++ [.put directory name kind]) directory name kind := by
  refine ⟨history.length, putAt_append_iff.mpr (.inr ⟨rfl, rfl⟩), ?_⟩
  rw [List.drop_of_length_le (by simp)]
  exact List.forall_mem_nil _

/-- Nothing has been put under a name after what was put there last. -/
theorem le_of_last {last : Nat}
    (others : ∀ later ∈ history.drop (last + 1), later.place ≠ directory ++ [name])
    (put : PutAt history directory name kind time) : time ≤ last := by
  by_contra after
  have later : Deed.put directory name kind ∈ history.drop (last + 1) := by
    apply List.mem_of_getElem? (i := time - (last + 1))
    rw [List.getElem?_drop, Nat.add_sub_cancel' (by omega)]
    exact put.put
  exact others _ later rfl

/-- An entry holds one kind of thing. -/
theorem Holds.unique {other : Kind} (holds : Holds history directory name kind)
    (again : Holds history directory name other) : kind = other := by
  obtain ⟨first, put, last⟩ := holds
  obtain ⟨second, putAgain, lastAgain⟩ := again
  obtain rfl : first = second :=
    Nat.le_antisymm (le_of_last lastAgain put) (le_of_last last putAgain)
  have same := put.put.symm.trans putAgain.put
  cases same
  rfl

end Later

/-! ## Faithful records -/

/-- Whether records tell what stands in a directory in the end, in the order of creation. -/
structure Faithful (history : List Deed) (directory : List String) (records : List Record) :
    Prop where
  born : ∀ record ∈ records, Born history directory record.name record.born
  holds : ∀ record ∈ records, Holds history directory record.name record.kind
  complete : ∀ name, Stands history directory name → name ∈ records.map (·.name)
  ordered : records.Pairwise (·.born < ·.born)

namespace Faithful

variable {history : List Deed} {directory : List String} {records : List Record} {deed : Deed}

/-- Nothing stands in a directory that a deed makes or takes away. -/
theorem renew (history : List Deed) (renewed : deed.place <+: directory) :
    Faithful (history ++ [deed]) directory [] := by
  refine ⟨List.forall_mem_nil _, List.forall_mem_nil _, ?_, .nil⟩
  intro name stands
  rcases stands_append_iff.mp stands with ⟨-, outlives⟩ | ⟨kind, rfl⟩
  · exact absurd (.inl renewed) outlives
  · have longer := renewed.length_le
    rw [Deed.place, List.length_append] at longer
    exact absurd longer (Nat.not_succ_le_self _)

variable (faithful : Faithful history directory records)
include faithful

/-- A deed that is done somewhere else changes nothing. -/
theorem keep (apart : ¬deed.place <+: directory) (away : deed.directory ≠ directory) :
    Faithful (history ++ [deed]) directory records := by
  have outlives (name : String) : ¬deed.Clears directory name := by
    rw [Deed.clears_iff apart]
    rintro rfl
    exact away rfl
  refine ⟨?_, ?_, ?_, faithful.ordered⟩
  · intro record member
    exact (faithful.born record member).append (outlives _)
  · intro record member
    refine (faithful.holds record member).append (outlives _) ?_
    intro same
    exact away (List.append_inj_left' same rfl)
  · intro name stands
    rcases stands_append_iff.mp stands with ⟨before, -⟩ | ⟨kind, rfl⟩
    · exact faithful.complete name before
    · exact absurd rfl away

/-- What is put under a name that stands keeps its record, which shows the new kind. -/
theorem overwrite {name : String} {kind : Kind}
    (apart : ¬(Deed.put directory name kind).place <+: directory)
    (present : name ∈ records.map (·.name)) :
    Faithful (history ++ [.put directory name kind]) directory
      (records.map fun record => { record with toItem := record.toItem.put name kind }) := by
  have outlives := Deed.not_clears_put apart
  refine ⟨?_, ?_, ?_, List.pairwise_map.mpr faithful.ordered⟩
  · rw [List.forall_mem_map]
    intro record member
    rw [Item.name_put]
    exact (faithful.born record member).append (outlives _)
  · rw [List.forall_mem_map]
    intro record member
    rw [Item.name_put, Item.put]
    split
    · next same =>
      rw [same]
      exact holds_last history directory name kind
    · next different =>
      exact (faithful.holds record member).append (outlives _) (Deed.place_ne different)
  · intro other stands
    have names : (records.map fun record =>
        ({ record with toItem := record.toItem.put name kind } : Record)).map (·.name) =
          records.map (·.name) := by
      rw [List.map_map]
      exact List.map_congr_left fun record _ => Item.name_put name kind record.toItem
    rw [names]
    rcases stands_append_iff.mp stands with ⟨before, -⟩ | ⟨_, same⟩
    · exact faithful.complete other before
    · cases same
      exact present

/-- What is put under a name that does not stand gets the last record. -/
theorem create {name : String} (kind : Kind)
    (apart : ¬(Deed.put directory name kind).place <+: directory)
    (absent : name ∉ records.map (·.name)) :
    Faithful (history ++ [.put directory name kind]) directory
      (records ++ [⟨⟨name, kind⟩, history.length⟩]) := by
  have outlives := Deed.not_clears_put apart
  refine ⟨?_, ?_, ?_, ?_⟩
  · rw [List.forall_mem_append, List.forall_mem_singleton]
    refine ⟨?_, born_last (mt (faithful.complete name) absent) kind⟩
    intro record member
    exact (faithful.born record member).append (outlives _)
  · rw [List.forall_mem_append, List.forall_mem_singleton]
    refine ⟨?_, holds_last history directory name kind⟩
    intro record member
    have different : record.name ≠ name := by
      rintro rfl
      exact absent (List.mem_map_of_mem member)
    exact (faithful.holds record member).append (outlives _) (Deed.place_ne different)
  · intro other stands
    rw [List.map_append, List.mem_append]
    rcases stands_append_iff.mp stands with ⟨before, -⟩ | ⟨_, same⟩
    · exact .inl (faithful.complete other before)
    · cases same
      exact .inr List.mem_cons_self
  · rw [List.pairwise_append]
    refine ⟨faithful.ordered, List.pairwise_singleton _ _, ?_⟩
    intro record member last new
    rw [List.mem_singleton.mp new]
    exact (faithful.born record member).time_lt

/-- What is removed has no record any more. -/
theorem remove {name : String} (apart : ¬(Deed.removed directory name).place <+: directory) :
    Faithful (history ++ [.removed directory name]) directory
      (records.filter (·.name ≠ name)) := by
  have outlives {other : String} (different : other ≠ name) :
      ¬(Deed.removed directory name).Clears directory other := by
    rw [Deed.clears_iff apart]
    rintro ⟨⟩
    exact different rfl
  have kept {record : Record} (member : record ∈ records.filter (·.name ≠ name)) :
      record ∈ records ∧ record.name ≠ name := by
    rwa [List.mem_filter, decide_eq_true_eq] at member
  refine ⟨?_, ?_, ?_, faithful.ordered.filter _⟩
  · intro record member
    obtain ⟨old, different⟩ := kept member
    exact (faithful.born record old).append (outlives different)
  · intro record member
    obtain ⟨old, different⟩ := kept member
    exact (faithful.holds record old).append (outlives different) (Deed.place_ne different)
  · intro other stands
    rcases stands_append_iff.mp stands with ⟨before, outlived⟩ | ⟨_, same⟩
    · obtain ⟨record, old, rfl⟩ := List.mem_map.mp (faithful.complete other before)
      refine List.mem_map_of_mem (List.mem_filter.mpr ⟨old, decide_eq_true ?_⟩)
      intro same
      exact outlived (.inr (same ▸ rfl))
    · contradiction

/-- There is a record of every entry that has been created and stands since. -/
theorem exists_born_iff (name : String) :
    name ∈ records.map (·.name) ↔ ∃ time, Born history directory name time := by
  constructor
  · intro listed
    obtain ⟨record, member, rfl⟩ := List.mem_map.mp listed
    exact ⟨record.born, faithful.born record member⟩
  · rintro ⟨time, ⟨kind, put⟩, -⟩
    exact faithful.complete name ⟨kind, time, put⟩

/-- The records show what the entries hold. -/
theorem holds_iff (name : String) (kind : Kind) :
    ⟨name, kind⟩ ∈ records.map Record.toItem ↔ Holds history directory name kind := by
  constructor
  · intro listed
    obtain ⟨record, member, same⟩ := List.mem_map.mp listed
    have holds := faithful.holds record member
    rwa [same] at holds
  · intro holds
    obtain ⟨record, member, rfl⟩ := List.mem_map.mp (faithful.complete name holds.stands)
    rw [holds.unique (faithful.holds record member)]
    exact List.mem_map_of_mem member

/-- A record stands before another if its entry is older. -/
theorem pairwise_born :
    (records.map Record.toItem).Pairwise fun first second => ∀ earlier later,
      Born history directory first.name earlier → Born history directory second.name later →
        earlier < later := by
  rw [List.pairwise_map]
  refine faithful.ordered.imp_of_mem ?_
  intro first second firstMember secondMember before earlier later bornEarlier bornLater
  have low := (faithful.born first firstMember).le bornEarlier
  have high := bornLater.le (faithful.born second secondMember)
  omega

/-- Every deed takes faithful records to faithful ones. -/
theorem enter (deed : Deed) :
    Faithful (history ++ [deed]) directory (deed.enter directory history.length records) := by
  rw [Deed.enter]
  split
  · next renewed => exact renew history renewed
  · next apart =>
    split
    · next here =>
      subst here
      cases deed with
      | put directory name kind =>
        rw [Deed.amend]
        split
        · next present => exact faithful.overwrite apart present
        · next absent => exact faithful.create kind apart absent
      | removed directory name => exact faithful.remove apart
    · next away => exact faithful.keep apart away

end Faithful

/-- What the deeds tell of a directory is what stands in it. -/
theorem faithful_chronicle (directory : List String) (history : List Deed) :
    Faithful history directory (chronicle directory history) := by
  induction history using List.reverseRecOn with
  | nil =>
    refine ⟨List.forall_mem_nil _, List.forall_mem_nil _, ?_, .nil⟩
    rintro name ⟨kind, time, put⟩
    exact absurd put.time_lt (Nat.not_lt_zero time)
  | append_singleton history deed ih =>
    rw [chronicle_append]
    exact ih.enter deed

/-! ## One operation further -/

section Further

variable {files : Files} {items : List Item} {name : String}

/-- What is listed are the entries of the working directory. -/
theorem Invariant.exists_listing (invariant : Invariant files) (listed : files.list = .ok items) :
    ∃ entries, files.here = .ok entries ∧ Orderly entries ∧ listing entries = items := by
  obtain ⟨entries, found, -, orderly⟩ := invariant.exists_here
  exact ⟨entries, found, orderly, Except.ok.inj ((list_eq found).symm.trans listed)⟩

/-- A deed in the working directory changes its listing. -/
theorem list_after (invariant : Invariant files) (listed : files.list = .ok items)
    {operation : Operation} {deed : Deed} (done : files.deed? operation = some deed) :
    (files.after operation).list = .ok (deed.relist items) := by
  obtain ⟨entries, found, ⟨distinct, -, -⟩, rfl⟩ := invariant.exists_listing listed
  obtain ⟨-, changed, after, does⟩ := exists_does found distinct done
  have there : (files.replaceHere changed).here = .ok changed := entriesAt_replaceAt found changed
  rw [after, list_eq there]
  exact congrArg Except.ok does.listed

private theorem isEntryName_of_listed (invariant : Invariant files)
    (listed : files.list = .ok items)
    (present : name ∈ items.map Item.name) : IsEntryName name := by
  obtain ⟨entries, -, ⟨-, names, -⟩, rfl⟩ := invariant.exists_listing listed
  rw [names_listing] at present
  exact names name present

private theorem deed?_write (invariant : Invariant files) (valid : IsEntryName name)
    (content : String) :
    files.deed? (.write name content) = some (.put files.path name .file) := by
  obtain ⟨entries, found, -, -⟩ := invariant.exists_here
  rw [deed?, perform, write_eq found, if_pos (isValidName_iff.mpr valid)]
  rfl

private theorem deed?_remove (invariant : Invariant files) (listed : files.list = .ok items)
    (present : name ∈ items.map Item.name) :
    files.deed? (.remove name) = some (.removed files.path name) := by
  obtain ⟨entries, found, -, rfl⟩ := invariant.exists_listing listed
  rw [names_listing] at present
  rw [deed?, perform, remove_eq found]
  cases stored : entries.lookup name with
  | some node => rfl
  | none => exact absurd present (lookup_eq_none_iff.mp stored)

private theorem deed?_makeDirectory (invariant : Invariant files) (listed : files.list = .ok items)
    (valid : IsEntryName name) (absent : name ∉ items.map Item.name) :
    files.deed? (.makeDirectory name) = some (.put files.path name .directory) := by
  obtain ⟨entries, found, -, rfl⟩ := invariant.exists_listing listed
  rw [names_listing] at absent
  rw [deed?, perform, makeDirectory_eq found, if_pos (isValidName_iff.mpr valid),
    lookup_eq_none_iff.mpr absent]
  rfl

/-- Overwriting an entry keeps its place and makes it a file. -/
theorem list_overwrite (invariant : Invariant files) (listed : files.list = .ok items)
    (present : name ∈ items.map Item.name) (content : String) :
    (files.after (.write name content)).list = .ok (items.map (Item.put name .file)) := by
  have valid := isEntryName_of_listed invariant listed present
  rw [list_after invariant listed (deed?_write invariant valid content), Deed.relist,
    if_pos present]

/-- An entry that is removed and created again, as a file or as a directory, is the last one. -/
theorem list_recreate (invariant : Invariant files) (listed : files.list = .ok items)
    (present : name ∈ items.map Item.name) :
    (∀ content, (files.run [.remove name, .write name content]).list =
      .ok (items.filter (·.name ≠ name) ++ [⟨name, .file⟩])) ∧
    (files.run [.remove name, .makeDirectory name]).list =
      .ok (items.filter (·.name ≠ name) ++ [⟨name, .directory⟩]) := by
  have valid := isEntryName_of_listed invariant listed present
  have between := invariant.after (.remove name)
  have removed := list_after invariant listed (deed?_remove invariant listed present)
  have absent : name ∉ (items.filter (·.name ≠ name)).map Item.name := by
    rw [List.mem_map]
    rintro ⟨item, member, same⟩
    exact of_decide_eq_true (List.mem_filter.mp member).2 same
  constructor
  · intro content
    have written := list_after between removed (deed?_write between valid content)
    rw [Deed.relist, Deed.relist, if_neg absent] at written
    exact written
  · have made := list_after between removed (deed?_makeDirectory between removed valid absent)
    rw [Deed.relist, Deed.relist, if_neg absent] at made
    exact made

/-! ## Elsewhere -/

/-- Whether a deed removes or overwrites a directory or one that it lies in. -/
def Deed.Destroys (directory : List String) (deed : Deed) : Prop :=
  deed.place <+: directory ∧ deed ≠ .put deed.directory deed.name .directory

/-- A directory is made only where nothing stands. -/
theorem lookup_of_made {entries : Entries} (found : files.here = .ok entries)
    {operation : Operation} {directory : List String}
    (done : files.deed? operation = some (.put directory name .directory)) :
    entries.lookup name = none := by
  rw [deed?] at done
  split at done
  · next outcome performed =>
    cases operation with
    | makeDirectory made =>
      cases done
      obtain ⟨changed, success, -⟩ := map_eq_ok_iff.mp performed
      rw [makeDirectory_eq found] at success
      split at success
      · split at success
        · contradiction
        · next absent => exact absent
      · contradiction
    | write | remove | changeDirectory | list | read => cases done
  · contradiction

/-- A deed that is done in another directory and does not destroy this one leaves its listing as it
is. -/
theorem list_elsewhere (invariant : Invariant files) {directory : List String}
    (listed : ({ files with path := directory } : Files).list = .ok items) {operation : Operation}
    (spared : ∀ deed, files.deed? operation = some deed →
      deed.directory ≠ directory ∧ ¬deed.Destroys directory) :
    ({ files.after operation with path := directory } : Files).list = .ok items := by
  cases done : files.deed? operation with
  | none =>
    show (entriesAt directory (files.after operation).root).map listing = .ok items
    rw [root_after_of_idle done]
    exact listed
  | some deed =>
    obtain ⟨away, harmless⟩ := spared deed done
    obtain ⟨entries, found, -, ⟨distinct, -, -⟩⟩ := invariant.exists_here
    obtain ⟨acts, changed, after, does⟩ := exists_does found distinct done
    have apart : ¬files.path ++ [deed.name] <+: directory := by
      -- Only a new directory could be put there, but then nothing would be below it yet.
      intro leads
      have made : deed = .put deed.directory deed.name .directory := by
        by_contra other
        rw [← acts] at leads
        exact harmless ⟨leads, other⟩
      obtain ⟨below, rfl⟩ := leads
      obtain ⟨inner, there, -⟩ := map_eq_ok_iff.mp listed
      rw [here, List.append_assoc, entriesAt_append, show entriesAt files.path files.root = _ from
        found, List.singleton_append] at there
      change entriesAt (deed.name :: below) entries = _ at there
      rw [entriesAt, lookup_of_made found (made ▸ done)] at there
      contradiction
    rw [after]
    exact (listing_replaceAt found does.elsewhere (acts ▸ Ne.symm away) apart).trans listed

/-- However many operations follow, a directory in which they do nothing and which they do not
destroy is listed as before. -/
theorem list_run_elsewhere (invariant : Invariant files) {directory : List String}
    (listed : ({ files with path := directory } : Files).list = .ok items)
    (operations : List Operation)
    (spared : ∀ deed ∈ files.deeds operations,
      deed.directory ≠ directory ∧ ¬deed.Destroys directory) :
    ({ files.run operations with path := directory } : Files).list = .ok items := by
  induction operations generalizing files with
  | nil => exact listed
  | cons operation others ih =>
    rw [deeds, List.forall_mem_append] at spared
    refine ih (invariant.after operation) (list_elsewhere invariant listed ?_) spared.2
    intro deed done
    exact spared.1 deed (done ▸ List.mem_singleton.mpr rfl)

end Further

/-! ## Runs -/

/-- Whatever was done to the empty tree, listing shows exactly the entries that have been created in
the working directory since the directory itself was, and have not been removed since: each of them
once, as what was last put under its name, ordered by the time of its creation. Overwriting keeps an
entry's place, and removing and creating it again moves it to the end. What is done in other
directories shows in no listing unless it removes or overwrites the directory or one above it. -/
theorem run_empty_creation (operations : List Operation) :
    let files := run {} operations
    let history := deeds {} operations
    (∃ items, files.list = .ok items ∧
      (items.map Item.name).Nodup ∧
      (∀ name, name ∈ items.map Item.name ↔ ∃ time, Born history files.path name time) ∧
      (∀ name kind, ⟨name, kind⟩ ∈ items ↔ Holds history files.path name kind) ∧
      items.Pairwise (fun first second => ∀ earlier later,
        Born history files.path first.name earlier → Born history files.path second.name later →
          earlier < later) ∧
      (∀ name ∈ items.map Item.name,
        (∀ content, (files.after (.write name content)).list =
          .ok (items.map (Item.put name .file))) ∧
        (∀ content, (files.run [.remove name, .write name content]).list =
          .ok (items.filter (·.name ≠ name) ++ [⟨name, .file⟩])) ∧
        (files.run [.remove name, .makeDirectory name]).list =
          .ok (items.filter (·.name ≠ name) ++ [⟨name, .directory⟩]))) ∧
    (∀ directory items others, ({ files with path := directory } : Files).list = .ok items →
      (∀ deed ∈ files.deeds others, deed.directory ≠ directory ∧ ¬deed.Destroys directory) →
      ({ files.run others with path := directory } : Files).list = .ok items) := by
  intro files history
  have invariant : Invariant files := invariant_empty.run operations
  obtain ⟨entries, found, -, ⟨distinct, -, -⟩⟩ := invariant.exists_here
  have tells : listing entries = (chronicle files.path history).map Record.toItem :=
    tells_empty.run invariant_empty operations files.path entries found
  have faithful := faithful_chronicle files.path history
  have listed : files.list = .ok (listing entries) := list_eq found
  refine ⟨⟨listing entries, listed, ?_, ?_, ?_, ?_, ?_⟩, ?_⟩
  · rwa [names_listing]
  · intro name
    rw [tells, List.map_map]
    exact faithful.exists_born_iff name
  · rw [tells]
    exact faithful.holds_iff
  · rw [tells]
    exact faithful.pairwise_born
  · intro name present
    exact ⟨list_overwrite invariant listed present, list_recreate invariant listed present⟩
  · intro directory items others before spared
    exact list_run_elsewhere invariant before others spared

/-- Directories that are left and entered again, with an entry that is removed and written anew. -/
theorem run_empty_creation_samples :
    let operations : List Operation :=
      [.makeDirectory "d", .write "a" "1", .changeDirectory "d", .write "b" "",
        .changeDirectory "..", .remove "a", .write "c" "", .write "a" "2"]
    let files := run {} operations
    let history := deeds {} operations
    files.list = .ok [⟨"d", .directory⟩, ⟨"c", .file⟩, ⟨"a", .file⟩] ∧
      (∃ earlier later, Born history [] "c" earlier ∧ Born history [] "a" later ∧
        earlier < later) ∧
      (files.after (.write "d" "")).list = .ok [⟨"d", .file⟩, ⟨"c", .file⟩, ⟨"a", .file⟩] ∧
      ({ files.run [.write "e" "", .remove "c"] with path := ["d"] } : Files).list =
        .ok [⟨"b", .file⟩] := by
  intro operations files history
  obtain ⟨⟨items, listed, -, born, -, ordered, further⟩, elsewhere⟩ :=
    run_empty_creation operations
  have shown : files.list = .ok [⟨"d", .directory⟩, ⟨"c", .file⟩, ⟨"a", .file⟩] := rfl
  obtain rfl := Except.ok.inj (listed.symm.trans shown)
  refine ⟨shown, ?_, ?_, ?_⟩
  · obtain ⟨earlier, bornEarlier⟩ := (born "c").mp (by decide)
    obtain ⟨later, bornLater⟩ := (born "a").mp (by decide)
    rw [List.pairwise_cons, List.pairwise_cons] at ordered
    exact ⟨earlier, later, bornEarlier, bornLater,
      ordered.2.1 _ List.mem_cons_self _ _ bornEarlier bornLater⟩
  · exact (further "d" (by decide)).1 ""
  · refine elsewhere ["d"] _ [.write "e" "", .remove "c"] rfl ?_
    have done : files.deeds [.write "e" "", .remove "c"] =
        [.put [] "e" .file, .removed [] "c"] := rfl
    rw [done, List.forall_mem_cons, List.forall_mem_singleton]
    refine ⟨⟨nofun, fun destroys => ?_⟩, ⟨nofun, fun destroys => ?_⟩⟩
    · exact absurd destroys.1 (by decide)
    · exact absurd destroys.1 (by decide)

end RegisterMachine.Files
