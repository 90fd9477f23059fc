import RegisterMachine.Machine.Snapshot
import RegisterMachine.Proofs.Instruction.Canonical
import RegisterMachine.Proofs.Machine.Faults
import RegisterMachine.Proofs.Machine.InRange
import RegisterMachine.Proofs.Text.Numeral

/-! # Views of the stack pointer

The stack pointer is shown in three places: by the instruction that prints it, on the first line of
the printed stack and in a snapshot. The last two show the unsigned number that it is, and the first
shows the signed number of the same bits. They agree on the lower half of all stack pointers.
Programs reach every stack pointer, but the upper half only by an increment of the last one below.
-/

namespace RegisterMachine

/-- The value of a member of an object. -/
def Json.Value.member? (key : String) : Json.Value → Option Json.Value
  | .object members => members.lookup key
  | _ => none

namespace Core

def pointer (core : Core) : Nat := core.cpu.registers.stackPointer.toNat

/-- How an instruction can bring the stack pointer to a number. -/
inductive Reaches (core : Core) (instruction : Instruction) (target : Nat) : Prop
  | down (le : target ≤ core.pointer)
  | load (addressed : target < 2 ^ 63)
  | push (inside : core.pointer < core.memory.size) (le : target ≤ core.pointer + 1)
  | increment (increments : instruction = .increment .stackPointer)
      (next : target = core.pointer + 1)

variable {core : Core} {instruction : Instruction}

private theorem pointer_lt (core : Core) :
    core.pointer < 2 ^ 64 := core.cpu.registers.stackPointer.toNat_lt

/-! ## One instruction -/

private theorem reaches_same : core.Reaches instruction core.pointer := .down (Nat.le_refl _)

private theorem toNat_add_one (room : core.pointer + 1 < 2 ^ 64) :
    (core.cpu.registers.stackPointer + 1).toNat = core.pointer + 1 := by
  rw [UInt64.toNat_add]
  exact Nat.mod_eq_of_lt room

private theorem toNat_sub_one_le (positive : core.cpu.registers.stackPointer ≠ 0) :
    (core.cpu.registers.stackPointer - 1).toNat ≤ core.pointer := by
  have nonzero : core.cpu.registers.stackPointer.toNat ≠ 0 := UInt64.toNat_inj.not.mpr positive
  have one : 1 ≤ core.cpu.registers.stackPointer :=
    UInt64.le_iff_toNat_le.mpr (Nat.one_le_iff_ne_zero.mpr nonzero)
  rw [UInt64.toNat_sub_of_le _ _ one]
  exact Nat.sub_le _ _

private theorem reaches_load (target : Target) (value : Word) :
    core.Reaches instruction (core.load target value).1.pointer := by
  cases target with
  | register register =>
    refine .down (Nat.le_of_eq ?_)
    exact congrArg UInt64.toNat (Registers.stackPointer_set core.cpu.registers register value)
  | stackPointer =>
    rw [Core.load]
    split
    · next index found =>
      refine .load (Nat.lt_of_le_of_lt ?_ (Word.toNat_lt_of_index? found))
      exact Nat.mod_le _ _
    · exact reaches_same

private theorem pointer_load {target : Nat} (addressed : target < 2 ^ 63) :
    (core.load .stackPointer (Int64.ofNat target)).1.pointer = target := by
  simp only [Core.load, Word.index?_ofNat addressed]
  show (UInt64.ofNat target).toNat = target
  exact Nat.mod_eq_of_lt (by omega)

private theorem pointer_increment (room : core.pointer + 1 < 2 ^ 64) :
    (core.increment .stackPointer).1.pointer = core.pointer + 1 := by
  have taken : core.increment .stackPointer =
      (core.setStackPointer (core.cpu.registers.stackPointer + 1)).next := if_pos room
  rw [taken]
  exact toNat_add_one room

private theorem reaches_increment :
    core.Reaches (.increment .stackPointer) (core.increment .stackPointer).1.pointer := by
  rw [Core.increment]
  split
  · next room => exact .increment rfl (toNat_add_one room)
  · exact reaches_same

private theorem reaches_decrement :
    core.Reaches instruction (core.decrement .stackPointer).1.pointer := by
  rw [decrement]
  split
  · exact reaches_same
  · next positive => exact .down (toNat_sub_one_le positive)

private theorem reaches_push (register : Register) :
    core.Reaches instruction (core.push register).1.pointer := by
  rw [Core.push]
  split
  · next inside =>
    refine .push inside ?_
    show (core.cpu.registers.stackPointer + 1).toNat ≤ _
    rw [UInt64.toNat_add]
    exact Nat.mod_le _ _
  · exact reaches_same

private theorem reaches_pop (register : Register) :
    core.Reaches instruction (core.pop register).1.pointer := by
  rw [pop]
  split
  · exact reaches_same
  · next positive =>
    split
    · refine .down ?_
      show (Registers.set _ register _).stackPointer.toNat ≤ _
      rw [Registers.stackPointer_set]
      exact toNat_sub_one_le positive
    · exact reaches_same

private theorem reaches_step (core : Core) (instruction : Instruction) :
    core.Reaches instruction (core.step instruction).1.pointer := by
  cases moves : instruction.movesStackPointer with
  | false =>
    have same := (core.confines_step instruction).stackPointer moves
    exact .down (Nat.le_of_eq (congrArg UInt64.toNat same))
  | true =>
    cases instruction with
    | load target value => exact reaches_load target value
    | increment target =>
      cases target with
      | register register => contradiction
      | stackPointer => exact reaches_increment
    | decrement target =>
      cases target with
      | register register => contradiction
      | stackPointer => exact reaches_decrement
    | push register => exact reaches_push register
    | pop register => exact reaches_pop register
    | _ => contradiction

private theorem pointer_dispatch {handlers : Handlers}
    (unlearnt : core.handler? handlers instruction = none) :
    (core.dispatch handlers instruction).1.pointer = (core.step instruction).1.pointer := by
  rw [dispatch_of_unlearnt unlearnt]
  exact congrArg (·.stackPointer.toNat) (core.registers_dispatch instruction)

/-- Where all of memory has an address, only an increment leads from the lower half of all stack
pointers into the upper one. -/
theorem eq_increment_of_crosses {handlers : Handlers}
    (unlearnt : core.handler? handlers instruction = none)
    (small : core.memory.size < 2 ^ 63) (low : core.pointer < 2 ^ 63)
    (high : 2 ^ 63 ≤ (core.dispatch handlers instruction).1.pointer) :
    instruction = .increment .stackPointer ∧ core.pointer = 2 ^ 63 - 1 := by
  rw [pointer_dispatch unlearnt] at high
  cases core.reaches_step instruction with
  | down le => omega
  | load addressed => omega
  | push inside le => omega
  | increment increments next => exact ⟨increments, by omega⟩

end Core

namespace Machine

/-! ## Runs of instructions -/

def dispatchAll (machine : Machine) (program : List Instruction) : Machine :=
  machine.run (program.map .dispatch)

private theorem pointer_increments (machine : Machine) (count : Nat)
    (room : machine.core.pointer + count < 2 ^ 64) :
    (machine.dispatchAll (.replicate count (.increment .stackPointer))).core.pointer =
      machine.core.pointer + count := by
  induction count generalizing machine with
  | zero => rfl
  | succ count ih =>
    have next : (machine.dispatch (.increment .stackPointer)).1.core.pointer =
        machine.core.pointer + 1 :=
      (Core.pointer_dispatch rfl).trans (Core.pointer_increment (by omega))
    have rest := ih (machine.dispatch (.increment .stackPointer)).1 (by omega)
    rw [next] at rest
    exact rest.trans (by omega)

/-- Loads and increments reach every stack pointer. -/
theorem exists_pointer_eq (machine : Machine) (pointer : UInt64) :
    ∃ program : List Instruction, (∀ instruction ∈ program, instruction.isOther = false) ∧
      (machine.dispatchAll program).core.cpu.registers.stackPointer = pointer := by
  -- The load goes as far as words do, and increments go the rest of the way.
  let start := min pointer.toNat (2 ^ 63 - 1)
  let load : Instruction := .load .stackPointer (Int64.ofNat start)
  refine ⟨load :: .replicate (pointer.toNat - start) (.increment .stackPointer), ?_, ?_⟩
  · intro instruction member
    rcases List.mem_cons.mp member with rfl | member
    · rfl
    · rw [List.eq_of_mem_replicate member]
      rfl
  · have bound := pointer.toNat_lt
    have loaded : (machine.dispatch load).1.core.pointer = start :=
      (Core.pointer_dispatch rfl).trans (Core.pointer_load (by omega))
    have reached :=
      pointer_increments (machine.dispatch load).1 (pointer.toNat - start) (by omega)
    rw [loaded] at reached
    exact UInt64.toNat_inj.mp (reached.trans (by omega))

/-- From the lower half of all stack pointers a program comes to the upper one by an increment of
the last one below. -/
theorem exists_increment_of_crosses (machine : Machine) (unlearnt : machine.handlers = [])
    (small : machine.core.memory.size < 2 ^ 63) (low : machine.core.pointer < 2 ^ 63)
    {program : List Instruction} (high : 2 ^ 63 ≤ (machine.dispatchAll program).core.pointer) :
    ∃ before after, program = before ++ .increment .stackPointer :: after ∧
      (machine.dispatchAll before).core.pointer = 2 ^ 63 - 1 := by
  induction program generalizing machine with
  | nil => exact absurd high (Nat.not_le.mpr low)
  | cons instruction rest ih =>
    by_cases crosses : 2 ^ 63 ≤ (machine.dispatch instruction).1.core.pointer
    · have builtIn : machine.core.handler? machine.handlers instruction = none := by
        rw [unlearnt]
        exact machine.core.handler?_nil instruction
      obtain ⟨rfl, last⟩ := Core.eq_increment_of_crosses builtIn small low crosses
      exact ⟨[], rest, rfl, last⟩
    · have size : (machine.dispatch instruction).1.core.memory.size = machine.core.memory.size := by
        obtain ⟨core, table, handlers⟩ := machine
        cases unlearnt
        exact core.size_dispatch instruction
      obtain ⟨before, after, rfl, last⟩ :=
        ih (machine.dispatch instruction).1 unlearnt (size ▸ small) (Nat.not_le.mp crosses) high
      exact ⟨instruction :: before, after, rfl, last⟩

/-! ## Views -/

/-- The number that the instruction prints, the number on the first line of the printed stack and
the number in the snapshot. -/
structure Shows (machine : Machine) (printed listed taken : Int) : Prop where
  printed : (machine.dispatch (.print .stackPointer)).1.core.output =
    machine.core.output.push s!"SP: {printed}"
  listed : ∃ cells, (machine.dispatch .printStack).1.core.output.toList =
    machine.core.output.toList ++ s!"SP points to: {listed}" :: cells
  taken : machine.snapshot.member? "sp" = some (.integer taken)

private theorem output_print (machine : Machine) :
    (machine.dispatch (.print .stackPointer)).1.core.output =
      machine.core.output.push
        s!"SP: {machine.core.cpu.registers.stackPointer.toInt64.toInt}" := rfl

private theorem output_printStack (machine : Machine) :
    (machine.dispatch .printStack).1.core.output.toList =
      machine.core.output.toList ++ s!"SP points to: {(machine.core.pointer : Int)}" ::
        machine.core.stackLines := by
  show ((machine.core.emit _).emitAll machine.core.stackLines).output.toList = _
  rw [Core.emitAll_eq]
  simp only [Core.emit, Array.toList_append, Array.toList_push, List.append_assoc]
  rfl

/-- The snapshot and the printed stack show the stack pointer as it is, and the instruction that
prints it shows the word with its bits. -/
theorem shows_iff {machine : Machine} {printed listed taken : Int} :
    machine.Shows printed listed taken ↔
      printed = machine.core.cpu.registers.stackPointer.toInt64.toInt ∧
        listed = machine.core.pointer ∧ taken = machine.core.pointer := by
  constructor
  · rintro ⟨printed, ⟨cells, listed⟩, taken⟩
    rw [output_print, Array.push_eq_push, String.append_right_inj] at printed
    rw [output_printStack, List.append_cancel_left_eq, List.cons.injEq,
      String.append_right_inj] at listed
    cases taken
    exact ⟨(Text.eq_of_toString_eq printed.1).symm, (Text.eq_of_toString_eq listed.1).symm, rfl⟩
  · rintro ⟨rfl, rfl, rfl⟩
    exact ⟨machine.output_print, ⟨_, machine.output_printStack⟩, rfl⟩

/-- The printed stack and the snapshot show the stack pointer as it is, and the instruction that
prints it shows the signed number of the same bits, which is less by `2 ^ 64` in the upper half. So
the three views agree exactly in the lower half. Programs of built-in instructions bring a fresh
machine to every stack pointer, and to one in the upper half only by an increment of the last one
below. -/
theorem pointer_views (machine : Machine) (config : Config) :
    let pointer := machine.core.pointer
    (∀ printed listed taken : Int,
      machine.Shows printed listed taken ↔
        printed = (if pointer < 2 ^ 63 then (pointer : Int) else pointer - 2 ^ 64) ∧
          listed = pointer ∧ taken = pointer) ∧
    (machine.Shows pointer pointer pointer ↔ pointer < 2 ^ 63) ∧
    (∀ reached : UInt64, ∃ program : List Instruction,
      (∀ instruction ∈ program, instruction.isOther = false) ∧
        ((ofConfig config).dispatchAll program).core.cpu.registers.stackPointer = reached) ∧
    (∀ program : List Instruction, config.memoryCells.toNat < 2 ^ 63 →
      2 ^ 63 ≤ ((ofConfig config).dispatchAll program).core.pointer →
      ∃ before after, program = before ++ .increment .stackPointer :: after ∧
        ((ofConfig config).dispatchAll before).core.pointer = 2 ^ 63 - 1) := by
  intro pointer
  have signed : machine.core.cpu.registers.stackPointer.toInt64.toInt =
      if pointer < 2 ^ 63 then (pointer : Int) else pointer - 2 ^ 64 :=
    toInt_toInt64 _
  refine ⟨?_, ?_, exists_pointer_eq (ofConfig config), ?_⟩
  · intro printed listed taken
    rw [shows_iff, signed]
  · rw [shows_iff, signed]
    have bound : pointer < 2 ^ 64 := machine.core.pointer_lt
    split <;> omega
  · intro program small high
    have size : (ofConfig config).core.memory.size < 2 ^ 63 :=
      Nat.lt_of_le_of_lt (Nat.le_of_eq (Memory.size_blank _)) small
    exact exists_increment_of_crosses _ rfl size (show 0 < 2 ^ 63 by decide) high

/-- The last stack pointer on which the views agree, and the one after it. -/
theorem pointer_views_samples :
    let config : Config := { memoryCells := 1 }
    let load : Instruction := .load .stackPointer 0x7fffffffffffffff
    let machine := (ofConfig config).dispatchAll [load]
    let crossed := (ofConfig config).dispatchAll [load, .increment .stackPointer]
    machine.Shows (2 ^ 63 - 1) (2 ^ 63 - 1) (2 ^ 63 - 1) ∧ 2 ^ 63 ≤ crossed.core.pointer ∧
      ∃ before after,
        [load, .increment .stackPointer] = before ++ .increment .stackPointer :: after ∧
          ((ofConfig config).dispatchAll before).core.pointer = 2 ^ 63 - 1 := by
  intro config load machine crossed
  obtain ⟨-, agree, -, crosses⟩ := pointer_views machine config
  have high : 2 ^ 63 ≤ crossed.core.pointer := by decide
  exact ⟨agree.mpr (by decide), high, crosses _ (by decide) high⟩

/-- Two instructions bring a fresh machine to a stack pointer that is printed as a negative number,
and as itself on the first line of the stack and in the snapshot. -/
theorem printed_pointer_negative :
    let machine := (ofConfig {}).dispatchAll
      [.load .stackPointer 0x7fffffffffffffff, .increment .stackPointer]
    machine.core.pointer = 2 ^ 63 ∧ machine.Shows (-2 ^ 63) (2 ^ 63) (2 ^ 63) ∧
      ¬∃ number, machine.Shows number number number := by
  intro machine
  have pointer : machine.core.pointer = 2 ^ 63 := by decide
  have signed : machine.core.cpu.registers.stackPointer.toInt64.toInt = -2 ^ 63 := by decide
  refine ⟨pointer, shows_iff.mpr ⟨signed.symm, by rw [pointer]; rfl, by rw [pointer]; rfl⟩, ?_⟩
  rintro ⟨number, shows⟩
  obtain ⟨negative, positive, -⟩ := shows_iff.mp shows
  rw [signed] at negative
  rw [pointer] at positive
  omega

end Machine

end RegisterMachine
