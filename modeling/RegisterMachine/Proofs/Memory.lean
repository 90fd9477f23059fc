import Mathlib.Data.List.DropRight
import RegisterMachine.Memory

/-! # Accesses to memory

A word is the address of a cell if it is not negative and less than the size of memory, and then it
is the position of that cell. An access with any other word fails and changes nothing. So a cell
holds what was written to its address last, or zero if nothing was written since memory was cleared.
-/

namespace RegisterMachine.Memory

/-! ## Addresses -/

section Addresses

variable {memory : Memory} {address : Word} {index : Nat} {fault : BoundsFault}

theorem index?_eq_none_iff :
    memory.index? address = none ↔ address.toInt < 0 ∨ memory.size ≤ address.toInt := by
  rw [index?, Word.index?]
  split
  · rw [Option.filter_some, ite_eq_right_iff]
    simp only [decide_eq_true_eq, reduceCtorEq, imp_false]
    omega
  · simp only [Option.filter_none, true_iff]
    omega

/-- An address is the position of its cell. -/
theorem index?_eq_some_iff :
    memory.index? address = some index ↔ address.toInt = index ∧ index < memory.size := by
  rw [index?, Option.filter_eq_some_iff, Word.index?, decide_eq_true_eq]
  refine and_congr_left fun _ => ?_
  split
  · rw [Option.some_inj]
    omega
  · simp only [reduceCtorEq, false_iff]
    omega

theorem lt_of_index?_eq_some (found : memory.index? address = some index) : index < memory.size :=
  (index?_eq_some_iff.mp found).2

/-- A cell is read unless its address is negative or beyond the last one. -/
theorem read_eq_error_iff :
    memory.read address = .error fault ↔
      (address.toInt < 0 ∨ memory.size ≤ address.toInt) ∧ .read address memory.size = fault := by
  rw [read, ← index?_eq_none_iff]
  cases memory.index? address <;> simp

private theorem read_of_found (found : memory.index? address = some index) :
    memory.read address = .ok (memory.get index) := by
  rw [read, found]

private theorem write_of_found (found : memory.index? address = some index) (value : Word) :
    memory.write address value = .ok (memory.set index value) := by
  rw [write, found]

private theorem write_of_absent (absent : memory.index? address = none) (value : Word) :
    memory.write address value = .error (.write address memory.size) := by
  rw [write, absent]

end Addresses

/-! ## Histories -/

inductive Access where
  | read (address : Word)
  | write (address value : Word)
  | clear
  deriving DecidableEq, Repr

/-- What an access writes to an address. -/
def Access.valueAt? (address : Word) : Access → Option Word
  | write place value => if place = address then some value else none
  | read _ | clear => none

/-- Memory after an access, whether it succeeds or fails. -/
def after (memory : Memory) : Access → Memory
  | .read _ => memory
  | .write address value =>
    match memory.write address value with
    | .ok changed => changed
    | .error _ => memory
  | .clear => memory.clear

def run (memory : Memory) (accesses : List Access) : Memory := accesses.foldl after memory

/-- What a history writes to an address last since memory is cleared, if it writes there. -/
def latest? (history : List Access) (address : Word) : Option Word :=
  (history.rtakeWhile (· ≠ .clear)).reverse.findSome? (Access.valueAt? address)

private theorem latest?_concat (history : List Access) (access : Access) (address : Word) :
    latest? (history ++ [access]) address =
      if access = .clear then none
      else (access.valueAt? address).or (latest? history address) := by
  rw [latest?, List.rtakeWhile_concat]
  by_cases clears : access = .clear
  · rw [if_neg (by simpa using clears), if_pos clears]
    rfl
  · rw [if_pos (decide_eq_true clears), if_neg clears, List.reverse_concat, List.findSome?_cons,
      latest?]
    cases access.valueAt? address <;> rfl

section Runs

variable {memory : Memory} {address : Word} {index : Nat}

private theorem after_write_of_found {place : Word} (found : memory.index? place = some index)
    (value : Word) : memory.after (.write place value) = memory.set index value := by
  rw [after, write_of_found found]

private theorem after_write_of_absent {place : Word} (absent : memory.index? place = none)
    (value : Word) : memory.after (.write place value) = memory := by
  rw [after, write_of_absent absent]

/-- No access changes the size of memory. -/
theorem size_after (memory : Memory) (access : Access) :
    (memory.after access).size = memory.size := by
  cases access with
  | read address => rfl
  | write address value =>
    cases found : memory.index? address with
    | none => rw [after_write_of_absent found]
    | some index => rw [after_write_of_found found, size_set]
  | clear => exact size_clear memory

private theorem size_run (memory : Memory) (accesses : List Access) :
    (memory.run accesses).size = memory.size := by
  induction accesses generalizing memory with
  | nil => rfl
  | cons access others ih => exact (ih _).trans (size_after memory access)

/-- A write changes only the cell at its own address. -/
theorem get_after_write (found : memory.index? address = some index) (place value : Word) :
    (memory.after (.write place value)).get index =
      if place = address then value else memory.get index := by
  obtain ⟨position, inside⟩ := index?_eq_some_iff.mp found
  cases there : memory.index? place with
  | none =>
    have other : place ≠ address := by
      rintro rfl
      exact absurd (there.symm.trans found) (by simp)
    rw [after_write_of_absent there, if_neg other]
  | some written =>
    obtain ⟨same, within⟩ := index?_eq_some_iff.mp there
    have meet : index = written ↔ place = address := by
      rw [← Int64.toInt_inj]
      omega
    rw [after_write_of_found there, get_set _ _ _ _ within]
    simp only [meet]

/-- A cell holds what was written to its address last. -/
theorem get_run {size : Nat} (history : List Access)
    (found : (blank size).index? address = some index) :
    ((blank size).run history).get index = (latest? history address).getD 0 := by
  induction history using List.reverseRecOn with
  | nil => exact get_blank size index
  | append_singleton history access ih =>
    rw [run, List.foldl_concat, ← run, latest?_concat]
    cases access with
    | read place => exact ih
    | write place value =>
      have still : ((blank size).run history).index? address = some index := by
        rw [index?_eq_some_iff] at found ⊢
        rwa [size_run]
      have writes : Access.write place value ≠ .clear := nofun
      rw [get_after_write still, if_neg writes, Access.valueAt?]
      split
      · rfl
      · exact ih
    | clear => exact get_blank _ index

end Runs

/-- After any history memory has its size, and for each of its addresses reads what was written
there last since it was cleared, or zero. A write there changes that cell alone. With any other word
a read or a write fails, reports the word and the size, and changes nothing. -/
theorem latest_write (size : Nat) (history : List Access) :
    let memory := (blank size).run history
    memory.size = size ∧
    (∀ address : Word, 0 ≤ address.toInt → address.toInt < size →
      memory.read address = .ok ((latest? history address).getD 0) ∧
      ∀ value, ∃ changed, memory.write address value = .ok changed ∧
        changed.read address = .ok value ∧ changed.size = size ∧
        ∀ position : Nat, position ≠ address.toInt →
          changed.cells[position]? = memory.cells[position]?) ∧
    ∀ address : Word, address.toInt < 0 ∨ size ≤ address.toInt →
      memory.read address = .error (.read address size) ∧
      memory.after (.read address) = memory ∧
      ∀ value, memory.write address value = .error (.write address size) ∧
        memory.after (.write address value) = memory := by
  intro memory
  have whole : memory.size = size := by simp [memory, size_run]
  refine ⟨whole, ?_, ?_⟩
  · intro address nonnegative below
    have cell {other : Memory} (same : other.size = size) :
        other.index? address = some address.toInt.toNat :=
      index?_eq_some_iff.mpr ⟨by omega, by omega⟩
    have found := cell whole
    refine ⟨?_, fun value => ⟨_, write_of_found found value, ?_, ?_, ?_⟩⟩
    · rw [read_of_found found, get_run history (cell (size_blank size))]
    · rw [read_of_found (cell ((size_set _ _ _).trans whole)),
        get_set _ _ _ _ (lt_of_index?_eq_some found), if_pos rfl]
    · exact (size_set _ _ _).trans whole
    · intro position other
      exact Array.getElem?_setIfInBounds_ne (by omega)
  · intro address outside
    rw [← whole] at outside
    have absent := index?_eq_none_iff.mpr outside
    refine ⟨?_, rfl, fun value => ⟨?_, after_write_of_absent absent value⟩⟩
    · rw [← whole]
      exact read_eq_error_iff.mpr ⟨outside, rfl⟩
    · rw [write_of_absent absent, whole]

/-- Two cells that are written before and after memory is cleared, with writes at both sides of
them. -/
theorem latest_write_samples :
    let history : List Access :=
      [.write 0 5, .clear, .write 1 8, .write 1 9, .write 2 3, .write (-1) 4, .read 0]
    let memory := (blank 2).run history
    memory.read 0 = .ok 0 ∧ memory.read 1 = .ok 9 ∧
      (∃ changed, memory.write 0 6 = .ok changed ∧ changed.read 0 = .ok 6 ∧
        changed.cells[1]? = memory.cells[1]?) ∧
      memory.read 2 = .error (.read 2 2) ∧
      memory.write (-9223372036854775808) 1 = .error (.write (-9223372036854775808) 2) ∧
      memory.after (.write (-9223372036854775808) 1) = memory := by
  intro history memory
  obtain ⟨-, inside, outside⟩ := latest_write 2 history
  obtain ⟨first, writes⟩ := inside 0 (by decide) (by decide)
  obtain ⟨changed, written, readBack, -, others⟩ := writes 6
  obtain ⟨fails, kept⟩ := (outside (-9223372036854775808) (.inl (by decide))).2.2 1
  exact ⟨first, (inside 1 (by decide) (by decide)).1,
    ⟨changed, written, readBack, others 1 (by decide)⟩, (outside 2 (.inr (by decide))).1, fails,
    kept⟩

end RegisterMachine.Memory
