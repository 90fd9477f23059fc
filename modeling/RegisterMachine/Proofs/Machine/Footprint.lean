import Mathlib.Data.Int.Order.Basic
import Mathlib.Order.Compare
import RegisterMachine.Proofs.Machine.Checked
import RegisterMachine.Proofs.Machine.Turns

/-! # The footprint of an instruction

What a built-in instruction may touch is told by its mnemonic and its operands: one cell or all of
memory, the file tree, the flag, the stack pointer, the registers that it names, the output, the
halt flag and the pointer. It leaves everything else as it is. In particular only a comparison
touches the flag, so that along a run the flag is that of the last comparison.
-/

namespace RegisterMachine

/-- The flag that stands for an ordering. -/
def Flag.ofOrdering : Ordering → Flag
  | .lt => .less
  | .eq => .equal
  | .gt => .greater

/-- The flag of a comparison stands for the ordering of the two numbers. -/
theorem Flag.ofWords_eq (left right : Word) :
    Flag.ofWords left right = .ofOrdering (compare left.toInt right.toInt) := by
  simp only [ofWords, Int64.lt_iff_toInt_lt, ← Int64.toInt_inj]
  rcases Int.lt_trichotomy left.toInt right.toInt with less | equal | greater
  · rw [compare_lt_iff_lt.mpr less, if_neg (by omega), if_neg (by omega)]
    rfl
  · rw [compare_eq_iff_eq.mpr equal, if_pos equal]
    rfl
  · rw [compare_gt_iff_gt.mpr greater, if_neg (by omega), if_pos greater]
    rfl

namespace Instruction

def destinations : Instruction → List Register
  | load (.register register) _ | arithmetic _ register _ | increment (.register register)
  | decrement (.register register) | loadCell _ register | pop register => [register]
  | copy _ destination => [destination]
  | swap left right => [left, right]
  | _ => []

def movesStackPointer : Instruction → Bool
  | load .stackPointer _ | increment .stackPointer | decrement .stackPointer => true
  | push _ | pop _ => true
  | _ => false

def prints : Instruction → Bool
  | printCell _ | peek | printStack | listDirectory | readFile _ | print _ | banner => true
  | _ => false

end Instruction

namespace Core

/-- The flag that an instruction sets, if it is one that does. -/
def comparison? (core : Core) : Instruction → Option Flag
  | .compare register value =>
    some (.ofOrdering (compare (core.get register).toInt value.toInt))
  | _ => none

/-- Whether an instruction can write the cell at a position. -/
def Writes (core : Core) (position : Nat) : Instruction → Prop
  | .clearMemory => True
  | .storeCell address _ => core.memory.index? address = some position
  | .push _ => core.cpu.registers.stackPointer.toNat = position
  | _ => False

/-- What an instruction may do to the registers and the output. -/
structure Confines (before : Core) (instruction : Instruction) (after : Core) : Prop where
  flag : after.cpu.registers.flag =
    (before.comparison? instruction).getD before.cpu.registers.flag
  stackPointer : instruction.movesStackPointer = false →
    after.cpu.registers.stackPointer = before.cpu.registers.stackPointer
  get : ∀ register, register ∉ instruction.destinations → after.get register = before.get register
  output : ∃ lines, after.output = before.output ++ lines ∧
    (instruction.prints = false → lines = #[])

/-- What an instruction that takes effect may do to anything. -/
structure Footprint (before : Core) (instruction : Instruction) (after : Core) : Prop
    extends Confines before instruction after where
  config : after.config = before.config
  size : after.memory.size = before.memory.size
  memory : instruction.changesMemory = false → after.memory = before.memory
  cells : ∀ position, ¬before.Writes position instruction →
    after.memory.get position = before.memory.get position
  files : instruction.changesFiles = false → after.files = before.files
  halted : instruction ≠ .halt → after.cpu.halted = before.cpu.halted
  halts : instruction = .halt → after.cpu.halted = true
  ip : instruction.redirects = false → instruction ≠ .halt → after.cpu.ip = before.cpu.ip + 1

variable {core before after : Core} {instruction : Instruction}

/-! ## Registers and output -/

private theorem Confines.output_of_eq (same : after.output = before.output) :
    ∃ lines, after.output = before.output ++ lines ∧ (instruction.prints = false → lines = #[]) :=
  ⟨#[], by simp [same], fun _ => rfl⟩

/-- Nothing has happened to the registers and the output. -/
theorem Confines.of_eq (compares : before.comparison? instruction = none)
    (registers : after.cpu.registers = before.cpu.registers)
    (output : after.output = before.output) : before.Confines instruction after where
  flag := by rw [compares, registers]; rfl
  stackPointer _ := by rw [registers]
  get register _ := by rw [Core.get, registers]; rfl
  output := output_of_eq output

/-- A register that the instruction names has been set. -/
theorem Confines.of_set {register : Register} {value : Word}
    (compares : before.comparison? instruction = none)
    (named : register ∈ instruction.destinations)
    (registers : after.cpu.registers = before.cpu.registers.set register value)
    (output : after.output = before.output) : before.Confines instruction after where
  flag := by rw [compares, registers, Registers.flag_set]; rfl
  stackPointer _ := by rw [registers, Registers.stackPointer_set]
  get other unnamed := by
    have different : other ≠ register := ne_of_mem_of_not_mem named unnamed |>.symm
    rw [Core.get, registers, Registers.get_set, if_neg different]
    rfl
  output := output_of_eq output

/-- The stack pointer has been moved. -/
theorem Confines.of_stackPointer {stackPointer : UInt64}
    (compares : before.comparison? instruction = none)
    (moves : instruction.movesStackPointer = true)
    (registers : after.cpu.registers = { before.cpu.registers with stackPointer })
    (output : after.output = before.output) : before.Confines instruction after where
  flag := by rw [compares, registers]; rfl
  stackPointer fixed := by
    rw [moves] at fixed
    contradiction
  get register _ := by rw [Core.get, registers]; rfl
  output := output_of_eq output

private theorem confines_emitAll (lines : List String)
    (compares : core.comparison? instruction = none) (prints : instruction.prints = true) :
    core.Confines instruction (core.emitAll lines).advance := by
  rw [emitAll_eq]
  refine ⟨by rw [compares]; rfl, fun _ => rfl, fun _ _ => rfl, lines.toArray, rfl, fun silent => ?_⟩
  rw [prints] at silent
  contradiction

private theorem confines_load (target : Target) (value : Word) :
    core.Confines (.load target value) (core.load target value).1 := by
  cases target with
  | register register => exact .of_set rfl (List.mem_singleton_self _) rfl rfl
  | stackPointer =>
    rw [load]
    split
    · exact .of_stackPointer rfl rfl rfl rfl
    · exact .of_eq rfl rfl rfl

private theorem confines_swap (left right : Register) :
    core.Confines (.swap left right) (core.step (.swap left right)).1 := by
  refine ⟨?_, fun _ => ?_, fun register unnamed => ?_, Confines.output_of_eq rfl⟩
  · exact (Registers.flag_set _ _ _).trans (Registers.flag_set _ _ _)
  · exact (Registers.stackPointer_set _ _ _).trans (Registers.stackPointer_set _ _ _)
  · obtain ⟨unlike, unlike'⟩ : register ≠ left ∧ register ≠ right := by
      simpa [Instruction.destinations] using unnamed
    show ((core.cpu.registers.set left _).set right _).get register = _
    rw [Registers.get_set, Registers.get_set, if_neg unlike', if_neg unlike]
    rfl

private theorem confines_compute (operator : Operator) {register : Register} (value : Word)
    (compares : core.comparison? instruction = none)
    (named : register ∈ instruction.destinations) :
    core.Confines instruction (core.compute operator register value).1 := by
  rw [compute]
  split
  · exact .of_set compares named rfl rfl
  · exact .of_eq compares rfl rfl

private theorem confines_increment (target : Target) :
    core.Confines (.increment target) (core.increment target).1 := by
  cases target with
  | register register => exact confines_compute .add 1 rfl (List.mem_singleton_self _)
  | stackPointer =>
    rw [increment]
    split
    · exact .of_stackPointer rfl rfl rfl rfl
    · exact .of_eq rfl rfl rfl

private theorem confines_decrement (target : Target) :
    core.Confines (.decrement target) (core.decrement target).1 := by
  cases target with
  | register register => exact confines_compute .subtract 1 rfl (List.mem_singleton_self _)
  | stackPointer =>
    rw [decrement]
    split
    · exact .of_eq rfl rfl rfl
    · exact .of_stackPointer rfl rfl rfl rfl

private theorem confines_withCell (address : Word) {use : Word → Outcome}
    (compares : core.comparison? instruction = none)
    (uses : ∀ value, core.Confines instruction (use value).1) :
    core.Confines instruction (core.withCell address use).1 := by
  rw [withCell]
  split
  · exact uses _
  · exact .of_eq compares rfl rfl

private theorem confines_push (register : Register) :
    core.Confines (.push register) (core.push register).1 := by
  rw [push]
  split
  · exact .of_stackPointer rfl rfl rfl rfl
  · exact .of_eq rfl rfl rfl

private theorem confines_pop (register : Register) :
    core.Confines (.pop register) (core.pop register).1 := by
  rw [pop]
  split
  · exact .of_eq rfl rfl rfl
  split
  · refine ⟨?_, fun fixed => by contradiction, fun other unnamed => ?_, Confines.output_of_eq rfl⟩
    · exact Registers.flag_set _ _ _
    · have different : other ≠ register := by simpa [Instruction.destinations] using unnamed
      exact (Registers.get_set _ _ _ _).trans (if_neg different)
  · exact .of_eq rfl rfl rfl

private theorem confines_peek : core.Confines .peek core.peek.1 := by
  rw [peek]
  split
  · exact confines_emitAll ["Stack is empty"] rfl rfl
  split
  · next value _ => exact confines_emitAll [s!"Stack top: {value}"] rfl rfl
  · exact .of_eq rfl rfl rfl

private theorem confines_withFiles (changed : Except Files.Error Files)
    (compares : core.comparison? instruction = none) :
    core.Confines instruction (core.withFiles changed).1 := by
  cases changed with
  | ok files => exact .of_eq compares rfl rfl
  | error error => exact .of_eq compares rfl rfl

private theorem confines_listDirectory : core.Confines .listDirectory core.listDirectory.1 := by
  rw [listDirectory]
  split
  · next items _ =>
    exact confines_emitAll (core.files.pathText :: items.map Files.Item.text) rfl rfl
  · exact .of_eq rfl rfl rfl

private theorem confines_readFile (name : String) :
    core.Confines (.readFile name) (core.readFile name).1 := by
  rw [readFile]
  split
  · next content _ => exact confines_emitAll [s!"{name}: {content}"] rfl rfl
  · exact .of_eq rfl rfl rfl

/-- Whether it takes effect or fails, an instruction does no more than it may to the registers and
the output. -/
theorem confines_step (core : Core) (instruction : Instruction) :
    core.Confines instruction (core.step instruction).1 := by
  cases instruction with
  | load target value => exact confines_load target value
  | copy source destination => exact .of_set rfl (List.mem_singleton_self _) rfl rfl
  | swap left right => exact confines_swap left right
  | arithmetic operator register value =>
    exact confines_compute operator value rfl (List.mem_singleton_self _)
  | increment target => exact confines_increment target
  | decrement target => exact confines_decrement target
  | compare register value =>
    exact ⟨Flag.ofWords_eq _ _, fun _ => rfl, fun _ _ => rfl, Confines.output_of_eq rfl⟩
  | jumpIf condition address =>
    rw [step]
    split <;> exact .of_eq rfl rfl rfl
  | storeCell address register =>
    rw [step, storeCell]
    split <;> exact .of_eq rfl rfl rfl
  | loadCell address register =>
    exact confines_withCell address rfl fun value => .of_set rfl (List.mem_singleton_self _) rfl rfl
  | printCell address =>
    exact confines_withCell address rfl fun value =>
      confines_emitAll [s!"Memory[{address}] = {value}"] rfl rfl
  | push register => exact confines_push register
  | pop register => exact confines_pop register
  | peek => exact confines_peek
  | printStack =>
    exact confines_emitAll
      (s!"SP points to: {core.cpu.registers.stackPointer}" :: core.stackLines) rfl rfl
  | makeDirectory name => exact confines_withFiles _ rfl
  | changeDirectory name => exact confines_withFiles _ rfl
  | listDirectory => exact confines_listDirectory
  | writeFile name content => exact confines_withFiles _ rfl
  | readFile name => exact confines_readFile name
  | remove name => exact confines_withFiles _ rfl
  | print target => exact confines_emitAll [s!"{target.label}: {core.printed target}"] rfl rfl
  | banner => exact confines_emitAll ["Welcome to simos"] rfl rfl
  -- The rest touch neither the registers nor the output.
  | _ => exact .of_eq rfl rfl rfl

/-! ## Memory -/

theorem memory_step_of_kept (kept : instruction.changesMemory = false) :
    (core.step instruction).1.memory = core.memory := by
  obtain ⟨effect, suits, same⟩ := core.exists_step_eq instruction
  rw [same]
  cases suits with
  | next change straight memory => exact (memory_alter core change).trans (memory kept)
  | _ => rfl

/-- An instruction leaves memory as it is, or clears it, or sets a cell that it may write. -/
theorem memory_step (core : Core) (instruction : Instruction) :
    (core.step instruction).1.memory = core.memory ∨
      (instruction = .clearMemory ∧ (core.step instruction).1.memory = core.memory.clear) ∨
      ∃ position value, core.Writes position instruction ∧ position < core.memory.size ∧
        (core.step instruction).1.memory = core.memory.set position value := by
  cases changes : instruction.changesMemory with
  | false => exact .inl (memory_step_of_kept changes)
  | true =>
    cases instruction with
    | storeCell address register =>
      rw [step, storeCell]
      split
      · next position found =>
        exact .inr (.inr ⟨position, _, found, Memory.lt_of_index?_eq_some found, rfl⟩)
      · exact .inl rfl
    | clearMemory => exact .inr (.inl ⟨rfl, rfl⟩)
    | push register =>
      rw [step, push]
      split
      · next inside => exact .inr (.inr ⟨_, _, rfl, inside, rfl⟩)
      · exact .inl rfl
    | _ => contradiction

/-- An instruction leaves memory as large as it is. -/
theorem size_step (core : Core) (instruction : Instruction) :
    (core.step instruction).1.memory.size = core.memory.size := by
  rcases core.memory_step instruction with same | ⟨-, cleared⟩ | ⟨position, value, -, -, set⟩
  · rw [same]
  · rw [cleared, Memory.size_clear]
  · rw [set, Memory.size_set]

/-- An instruction leaves the cells that it may not write. -/
theorem cell_step {position : Nat} (spared : ¬core.Writes position instruction) :
    (core.step instruction).1.memory.get position = core.memory.get position := by
  rcases core.memory_step instruction with same | ⟨rfl, -⟩ | ⟨other, value, writes, inside, set⟩
  · rw [same]
  · exact absurd trivial spared
  · have different : position ≠ other := by
      rintro rfl
      exact spared writes
    rw [set, Memory.get_set _ _ _ _ inside, if_neg different]

/-! ## Everything else -/

theorem files_step_of_kept (kept : instruction.changesFiles = false) :
    (core.step instruction).1.files = core.files := by
  obtain ⟨effect, suits, same⟩ := core.exists_step_eq instruction
  rw [same]
  cases suits with
  | next change straight memory files => exact (files_alter core change).trans (files kept)
  | _ => rfl

private theorem halted_step (goesOn : instruction ≠ .halt) :
    (core.step instruction).1.cpu.halted = core.cpu.halted := by
  obtain ⟨effect, suits, same⟩ := core.exists_step_eq instruction
  rw [same]
  cases suits with
  | next change =>
    show (core.alter change).cpu.halted = core.cpu.halted
    rw [cpu_alter]
  | halt halts => exact absurd halts goesOn
  | _ => rfl

private theorem ip_step (silent : (core.step instruction).2 = none)
    (straight : instruction.redirects = false) (goesOn : instruction ≠ .halt) :
    (core.step instruction).1.cpu.ip = core.cpu.ip + 1 := by
  obtain ⟨effect, suits, same⟩ := core.exists_step_eq instruction
  rw [same] at silent ⊢
  cases suits with
  | fail fault => contradiction
  | next change =>
    show (core.alter change).cpu.ip + 1 = core.cpu.ip + 1
    rw [cpu_alter]
  | redirect ip turns =>
    rw [straight] at turns
    contradiction
  | halt halts => exact absurd halts goesOn

private theorem footprint_step (silent : (core.step instruction).2 = none) :
    core.Footprint instruction (core.step instruction).1 where
  toConfines := core.confines_step instruction
  config := core.config_step instruction
  size := core.size_step instruction
  memory := memory_step_of_kept
  cells _ := cell_step
  files := files_step_of_kept
  halted := halted_step
  halts := by
    rintro rfl
    rfl
  ip := ip_step silent

end Core

/-! ## Runs -/

namespace Turn

/-- The flag that a turn sets, if it is one of a comparison. -/
def comparison? (turn : Turn) : Option Flag := turn.core.comparison? turn.instruction

/-- The flag after turns, given the one before them: that of the last comparison among them. -/
def lastFlag (flag : Flag) (turns : List Turn) : Flag :=
  (turns.filterMap comparison?).getLast?.getD flag

private theorem lastFlag_cons (flag : Flag) (turn : Turn) (turns : List Turn) :
    lastFlag flag (turn :: turns) = lastFlag (turn.comparison?.getD flag) turns := by
  rw [lastFlag, lastFlag, List.filterMap_cons]
  cases turn.comparison? with
  | none => rfl
  | some set =>
    dsimp only
    rw [List.getLast?_cons]
    rfl

private theorem flag_after {handlers : Handlers} {turn : Turn}
    (unlearnt : turn.handler? handlers = none) :
    (turn.after handlers).cpu.registers.flag =
      turn.comparison?.getD turn.core.cpu.registers.flag := by
  have confines := turn.core.confines_step turn.instruction
  rw [cpu_after, Core.dispatch_of_unlearnt unlearnt, Core.registers_dispatch]
  exact confines.flag

end Turn

/-- A course of instructions that no handler carries out leaves the flag of its last comparison. -/
theorem Core.Course.flag_eq {handlers : Handlers} {program : List Instruction} {core last : Core}
    {turns : List Turn} (course : core.Course handlers program turns last)
    (unlearnt : ∀ turn ∈ turns, turn.handler? handlers = none) :
    last.cpu.registers.flag = Turn.lastFlag core.cpu.registers.flag turns := by
  induction course with
  | nil => rfl
  | cons running fetched rest ih =>
    rw [List.forall_mem_cons] at unlearnt
    rw [ih unlearnt.2, Turn.flag_after unlearnt.1, Turn.lastFlag_cons]

namespace Machine

end Machine

end RegisterMachine
