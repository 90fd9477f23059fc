import Mathlib.Data.List.Infix
import RegisterMachine.Proofs.Machine.Footprint
import RegisterMachine.Proofs.Machine.Trace

/-! # The stack

The cells below the stack pointer are a stack that memory bounds: a push adds a value at its end as
long as there is room, and a pop takes the last value from it as long as there is one. A push onto a
full stack and a pop from an empty one are faults and leave it as it is. As long as nothing else
writes the stack pointer or memory, the stack pointer is the depth of the stack and no cell is
written that the stack has not reached.
-/

namespace RegisterMachine

/-- Whether an instruction writes the stack pointer or memory only by a push or a pop. -/
def Instruction.respectsStack : Instruction → Bool
  | .push _ | .pop _ => true
  | instruction => !instruction.changesMemory && !instruction.movesStackPointer

/-! ## Cells -/

namespace Memory

variable {memory : Memory} {depth : Nat}

def below (memory : Memory) (depth : Nat) : List Word := memory.cells.toList.take depth

private theorem length_below (inside : depth ≤ memory.size) :
    (memory.below depth).length = depth := by
  rw [below, List.length_take, Array.length_toList]
  exact Nat.min_eq_left inside

private theorem below_succ (inside : depth < memory.size) :
    memory.below (depth + 1) = memory.below depth ++ [memory.get depth] := by
  have inside' : depth < memory.cells.toList.length := inside
  rw [below, List.take_succ_eq_append_getElem inside', get,
    Array.getElem?_eq_getElem (show depth < memory.cells.size from inside)]
  rfl

private theorem below_set_succ (inside : depth < memory.size) (value : Word) :
    (memory.set depth value).below (depth + 1) = memory.below depth ++ [value] := by
  have kept : (memory.set depth value).below depth = memory.below depth := by
    rw [below, set, Array.toList_setIfInBounds, List.take_set_of_le (Nat.le_refl depth), below]
  rw [below_succ (by rwa [size_set]), kept, get_set _ _ _ _ inside, if_pos rfl]

/-- A stack pointer within memory reads its cell. -/
theorem read_toInt64 {stackPointer : UInt64} (inside : stackPointer.toNat < memory.size)
    (small : memory.size ≤ 2 ^ 63) :
    memory.read stackPointer.toInt64 = .ok (memory.get stackPointer.toNat) := by
  rw [read, index?_toInt64_of_lt inside small]

end Memory

namespace Core

/-- The stack, with its top at the end. -/
def stack (core : Core) : List Word := core.memory.below core.cpu.registers.stackPointer.toNat

/-- A core whose stack lies in a memory of the given size, which words can address. -/
structure HoldsStack (capacity : Nat) (core : Core) : Prop where
  small : capacity ≤ 2 ^ 63
  size : core.memory.size = capacity
  within : core.cpu.registers.stackPointer.toNat ≤ capacity

variable {handlers : Handlers} {core : Core} {instruction : Instruction} {capacity : Nat}

private theorem stack_of_fault (unlearnt : core.handler? handlers instruction = none)
    {fault : Fault} (raised : (core.dispatch handlers instruction).2 = some fault) :
    (core.dispatch handlers instruction).1.stack = core.stack := by
  rw [dispatch_of_fault_of_unlearnt unlearnt raised, settle_eq]
  rfl

namespace HoldsStack

private theorem depth (holds : core.HoldsStack capacity) :
    core.cpu.registers.stackPointer.toNat = core.stack.length :=
  (Memory.length_below (holds.size.symm ▸ holds.within)).symm

private theorem length_le (holds : core.HoldsStack capacity) : core.stack.length ≤ capacity :=
  holds.depth ▸ holds.within

/-! ## Pushes and pops -/

private theorem push (holds : core.HoldsStack capacity) (register : Register)
    (room : core.stack.length < capacity) :
    ∃ pushed, core.dispatch handlers (.push register) = (pushed, none) ∧
      pushed.HoldsStack capacity ∧ pushed.stack = core.stack ++ [core.get register] ∧
      pushed.get = core.get := by
  rw [← holds.depth] at room
  have inside : core.cpu.registers.stackPointer.toNat < core.memory.size := holds.size.symm ▸ room
  have small := holds.small
  have above : (core.cpu.registers.stackPointer + 1).toNat =
      core.cpu.registers.stackPointer.toNat + 1 := by
    rw [UInt64.toNat_add]
    exact Nat.mod_eq_of_lt (by simp; omega)
  let memory := core.memory.set core.cpu.registers.stackPointer.toNat (core.get register)
  let pushed := ({ core with memory }.setStackPointer
    (core.cpu.registers.stackPointer + 1)).advance
  have taken : core.step (.push register) = (pushed, none) := if_pos inside
  refine ⟨pushed, ?_, ⟨small, ?_, ?_⟩, ?_, rfl⟩
  · rw [dispatch_of_unlearnt rfl, dispatch_of_success (by rw [taken]), taken]
  · exact (Memory.size_set _ _ _).trans holds.size
  · show (core.cpu.registers.stackPointer + 1).toNat ≤ capacity
    omega
  · show memory.below (core.cpu.registers.stackPointer + 1).toNat = _
    rw [above, Memory.below_set_succ inside]
    rfl

private theorem push_of_full (holds : core.HoldsStack capacity) (register : Register)
    (full : core.stack.length = capacity) :
    core.dispatch handlers (.push register) =
      (core.halt, some (.bounds (.stackOverflow (.ofNat capacity) capacity))) := by
  rw [← holds.depth] at full
  have outside : ¬core.cpu.registers.stackPointer.toNat < core.memory.size := by
    rw [holds.size, full]
    exact Nat.lt_irrefl _
  have failed : core.step (.push register) = (core, some (.bounds
      (.stackOverflow core.cpu.registers.stackPointer core.memory.size))) := if_neg outside
  rw [dispatch_of_unlearnt rfl, dispatch_of_failure (by rw [failed]), failed, settle_of_isFatal rfl,
    holds.size, ← full, UInt64.ofNat_toNat]

/-- The top of the stack is the cell before the stack pointer. -/
theorem top (holds : core.HoldsStack capacity) {rest : List Word} {top : Word}
    (shape : core.stack = rest ++ [top]) :
    core.cpu.registers.stackPointer.toNat = rest.length + 1 ∧
      core.memory.below rest.length = rest ∧ core.memory.get rest.length = top := by
  have above : core.cpu.registers.stackPointer.toNat = rest.length + 1 := by
    rw [holds.depth, shape, List.length_append, List.length_singleton]
  have inside : rest.length < core.memory.size := by
    have within := holds.within
    rw [holds.size]
    omega
  rw [stack, above, Memory.below_succ inside] at shape
  obtain ⟨below, last⟩ := List.append_inj' shape rfl
  exact ⟨above, below, List.singleton_inj.mp last⟩

private theorem pop (holds : core.HoldsStack capacity) (register : Register) {rest : List Word}
    {top : Word} (shape : core.stack = rest ++ [top]) :
    ∃ popped, core.dispatch handlers (.pop register) = (popped, none) ∧
      popped.HoldsStack capacity ∧ popped.stack = rest ∧ popped.get register = top := by
  obtain ⟨above, below, last⟩ := holds.top shape
  have within := holds.within
  have nonempty : core.cpu.registers.stackPointer ≠ 0 := by
    intro zero
    rw [zero] at above
    contradiction
  have less : (core.cpu.registers.stackPointer - 1).toNat = rest.length := by
    have one : 1 ≤ core.cpu.registers.stackPointer :=
      UInt64.le_iff_toNat_le.mpr (above ▸ Nat.le_add_left 1 rest.length)
    rw [UInt64.toNat_sub_of_le _ _ one, above]
    rfl
  have read : core.memory.read (core.cpu.registers.stackPointer - 1).toInt64 = .ok top := by
    rw [Memory.read_toInt64 (by rw [less, holds.size]; omega) (holds.size.symm ▸ holds.small), less,
      last]
  let popped := ((core.setStackPointer (core.cpu.registers.stackPointer - 1)).set register
    top).advance
  have taken : core.step (.pop register) = (popped, none) := by
    rw [step, Core.pop, if_neg nonempty, read]
    rfl
  have pointer : popped.cpu.registers.stackPointer = core.cpu.registers.stackPointer - 1 :=
    Registers.stackPointer_set _ _ _
  refine ⟨popped, ?_, ⟨holds.small, holds.size, ?_⟩, ?_, ?_⟩
  · rw [dispatch_of_unlearnt rfl, dispatch_of_success (by rw [taken]), taken]
  · rw [pointer, less]
    omega
  · rw [stack, pointer, less]
    exact below
  · exact (Registers.get_set _ _ _ _).trans (if_pos rfl)

private theorem pop_of_empty (holds : core.HoldsStack capacity) (register : Register)
    (empty : core.stack = []) :
    core.dispatch handlers (.pop register) = (core.halt, some (.bounds .stackUnderflow)) := by
  have zero : core.cpu.registers.stackPointer = 0 := by
    rw [← UInt64.toNat_inj, holds.depth, empty]
    rfl
  have failed : core.step (.pop register) = (core, some (.bounds .stackUnderflow)) := if_pos zero
  rw [dispatch_of_unlearnt rfl, dispatch_of_failure (by rw [failed]), failed, settle_of_isFatal rfl]

/-! ## Every instruction -/

private theorem other (holds : core.HoldsStack capacity)
    (unlearnt : core.handler? handlers instruction = none)
    (keeps : instruction.changesMemory = false) (fixed : instruction.movesStackPointer = false) :
    let after := (core.dispatch handlers instruction).1
    after.HoldsStack capacity ∧ after.memory = core.memory ∧ after.stack = core.stack := by
  intro after
  have memory : after.memory = core.memory := by
    show (core.dispatch handlers instruction).1.memory = _
    rw [dispatch_of_unlearnt unlearnt, memory_dispatch, memory_step_of_kept keeps]
  have pointer : after.cpu.registers.stackPointer = core.cpu.registers.stackPointer := by
    show (core.dispatch handlers instruction).1.cpu.registers.stackPointer = _
    rw [dispatch_of_unlearnt unlearnt, registers_dispatch]
    exact (core.confines_step instruction).stackPointer fixed
  refine ⟨⟨holds.small, ?_, ?_⟩, memory, ?_⟩
  · rw [memory, holds.size]
  · rw [pointer]
    exact holds.within
  · rw [stack, memory, pointer, stack]

private theorem dispatch (holds : core.HoldsStack capacity)
    (unlearnt : core.handler? handlers instruction = none) (respects : instruction.respectsStack) :
    (core.dispatch handlers instruction).1.HoldsStack capacity := by
  cases instruction with
  | push register =>
    rcases Nat.lt_or_eq_of_le holds.length_le with room | full
    · obtain ⟨pushed, dispatched, holds, -⟩ := holds.push register room
      rwa [dispatched]
    · rw [holds.push_of_full register full]
      exact ⟨holds.small, holds.size, holds.within⟩
  | pop register =>
    rcases List.eq_nil_or_concat' core.stack with empty | ⟨rest, top, shape⟩
    · rw [holds.pop_of_empty register empty]
      exact ⟨holds.small, holds.size, holds.within⟩
    · obtain ⟨popped, dispatched, holds, -⟩ := holds.pop register shape
      rwa [dispatched]
  | _ =>
    simp only [Instruction.respectsStack, Bool.and_eq_true, Bool.not_eq_true'] at respects
    exact (holds.other unlearnt respects.1 respects.2).1

/-- A cell that the stack does not reach after an instruction has kept its value. -/
theorem cell (holds : core.HoldsStack capacity)
    (unlearnt : core.handler? handlers instruction = none) (respects : instruction.respectsStack)
    {position : Nat} (after : (core.dispatch handlers instruction).1.stack.length ≤ position) :
    (core.dispatch handlers instruction).1.memory.get position = core.memory.get position := by
  cases instruction with
  | push register =>
    rcases Nat.lt_or_eq_of_le holds.length_le with room | full
    · obtain ⟨pushed, dispatched, -, shape, -⟩ := holds.push register room
      rw [dispatched, shape, List.length_append, List.length_singleton] at after
      -- The cell that is written is the last of the stack that the push leaves.
      have spared : ¬core.Writes position (.push register) := by
        rw [Writes, holds.depth]
        omega
      rw [dispatch_of_unlearnt rfl, memory_dispatch, cell_step spared]
    · rw [holds.push_of_full register full]
      rfl
  | pop register =>
    rw [dispatch_of_unlearnt rfl, memory_dispatch, memory_step_of_kept rfl]
  | _ =>
    simp only [Instruction.respectsStack, Bool.and_eq_true, Bool.not_eq_true'] at respects
    rw [(holds.other unlearnt respects.1 respects.2).2.1]

end HoldsStack

end Core

namespace Machine

/-- A machine on which pushes and pops are those of a stack that is bounded by a capacity. -/
structure StacksUpTo (capacity : Nat) (machine : Machine) : Prop where
  size : machine.core.memory.size = capacity
  depth : machine.core.cpu.registers.stackPointer.toNat = machine.core.stack.length
  bounded : machine.core.stack.length ≤ capacity
  push : ∀ register, machine.core.stack.length < capacity →
    let after := machine.dispatch (.push register)
    after.2 = none ∧ after.1.core.stack = machine.core.stack ++ [machine.core.get register]
  full : ∀ register, machine.core.stack.length = capacity →
    (machine.dispatch (.push register)).2 =
      some (.bounds (.stackOverflow (.ofNat capacity) capacity))
  pop : ∀ register rest top, machine.core.stack = rest ++ [top] →
    let after := machine.dispatch (.pop register)
    after.2 = none ∧ after.1.core.stack = rest ∧ after.1.core.get register = top
  empty : ∀ register, machine.core.stack = [] →
    (machine.dispatch (.pop register)).2 = some (.bounds .stackUnderflow)
  other : ∀ instruction, machine.core.handler? machine.handlers instruction = none →
    instruction.changesMemory = false → instruction.movesStackPointer = false →
    (machine.dispatch instruction).1.core.stack = machine.core.stack
  failed : ∀ instruction fault, machine.core.handler? machine.handlers instruction = none →
    (machine.dispatch instruction).2 = some fault →
    (machine.dispatch instruction).1.core.stack = machine.core.stack

/-- The values that pops into registers give, one after another. -/
def takes (machine : Machine) : List Register → List Word
  | [] => []
  | register :: others =>
    let after := (machine.dispatch (.pop register)).1
    after.core.get register :: after.takes others

variable {machine : Machine} {capacity : Nat}

private theorem dispatch_eq (machine : Machine) (instruction : Instruction) :
    machine.dispatch instruction =
      ({ machine with core := (machine.core.dispatch machine.handlers instruction).1 },
        (machine.core.dispatch machine.handlers instruction).2) := rfl

private theorem stacksUpTo (holds : machine.core.HoldsStack capacity) :
    machine.StacksUpTo capacity where
  size := holds.size
  depth := holds.depth
  bounded := holds.length_le
  push register room := by
    obtain ⟨pushed, dispatched, -, shape, -⟩ := holds.push register room
    rw [dispatch_eq, dispatched]
    exact ⟨rfl, shape⟩
  full register full := by rw [dispatch_eq, holds.push_of_full register full]
  pop register rest top shape := by
    obtain ⟨popped, dispatched, -, left, taken⟩ := holds.pop register shape
    rw [dispatch_eq, dispatched]
    exact ⟨rfl, left, taken⟩
  empty register empty := by rw [dispatch_eq, holds.pop_of_empty register empty]
  other instruction unlearnt keeps fixed := (holds.other unlearnt keeps fixed).2.2
  failed instruction fault unlearnt raised := Core.stack_of_fault unlearnt raised

/-! ## Sequences -/

/-- Instructions that no handler carries out leave it so for those after them. -/
theorem handler?_act {instruction other : Instruction}
    (unlearnt : machine.core.handler? machine.handlers instruction = none)
    (unlearnt' : machine.core.handler? machine.handlers other = none) :
    (machine.act (.dispatch instruction)).core.handler? machine.handlers other = none :=
  (Core.handler?_dispatch unlearnt other).trans unlearnt'

private theorem holdsStack_run (holds : machine.core.HoldsStack capacity)
    {instructions : List Instruction}
    (unlearnt : ∀ instruction ∈ instructions,
      machine.core.handler? machine.handlers instruction = none)
    (respects : ∀ instruction ∈ instructions, instruction.respectsStack) :
    (machine.run (instructions.map .dispatch)).core.HoldsStack capacity := by
  induction instructions generalizing machine with
  | nil => exact holds
  | cons instruction others ih =>
    rw [List.forall_mem_cons] at unlearnt respects
    exact ih (holds.dispatch unlearnt.1 respects.1)
      (fun other member => handler?_act unlearnt.1 (unlearnt.2 other member)) respects.2

/-- A cell that the stack never reaches keeps its value. -/
theorem cell_run (holds : machine.core.HoldsStack capacity) {instructions : List Instruction}
    (unlearnt : ∀ instruction ∈ instructions,
      machine.core.handler? machine.handlers instruction = none)
    (respects : ∀ instruction ∈ instructions, instruction.respectsStack) {position : Nat}
    (spared : ∀ earlier, earlier <+: instructions →
      (machine.run (earlier.map .dispatch)).core.stack.length ≤ position) :
    (machine.run (instructions.map .dispatch)).core.memory.get position =
      machine.core.memory.get position := by
  induction instructions generalizing machine with
  | nil => rfl
  | cons instruction others ih =>
    rw [List.forall_mem_cons] at unlearnt respects
    have first : [instruction] <+: instruction :: others := ⟨others, rfl⟩
    have kept := holds.cell unlearnt.1 respects.1 (spared [instruction] first)
    refine Eq.trans ?_ kept
    refine ih (holds.dispatch unlearnt.1 respects.1)
      (fun other member => handler?_act unlearnt.1 (unlearnt.2 other member)) respects.2 ?_
    intro earlier begins
    exact spared (instruction :: earlier) (List.cons_prefix_cons.mpr ⟨rfl, begins⟩)

/-- Pushes for which there is room put the values of the registers on the stack. -/
theorem stack_run_pushes (holds : machine.core.HoldsStack capacity) {pushed : List Register}
    (room : machine.core.stack.length + pushed.length ≤ capacity) :
    let filled := machine.run (pushed.map fun register => .dispatch (.push register))
    filled.core.HoldsStack capacity ∧
      filled.core.stack = machine.core.stack ++ pushed.map machine.core.get := by
  induction pushed generalizing machine with
  | nil => exact ⟨holds, (List.append_nil _).symm⟩
  | cons register others ih =>
    rw [List.length_cons] at room
    obtain ⟨core, dispatched, holds, shape, get⟩ := holds.push register (by omega)
    let next : Machine := { machine with core }
    have first : machine.act (.dispatch (.push register)) = next := by
      rw [act, dispatch_eq, dispatched]
    have fits : next.core.stack.length + others.length ≤ capacity := by
      rw [shape, List.length_append, List.length_singleton]
      omega
    rw [List.map_cons, run_cons, first]
    obtain ⟨holds, stack⟩ := ih holds fits
    refine ⟨holds, stack.trans ?_⟩
    rw [shape, get, List.append_assoc]
    rfl

/-- Pops take as many values as there are registers from the top of the stack. -/
theorem takes_eq (holds : machine.core.HoldsStack capacity) {popped : List Register}
    {rest values : List Word} (shape : machine.core.stack = rest ++ values.reverse)
    (enough : popped.length = values.length) :
    machine.takes popped = values ∧
      (machine.run (popped.map fun register => .dispatch (.pop register))).core.stack = rest := by
  -- The values are listed from the top, so that each pop takes the first of them.
  induction popped generalizing machine values with
  | nil =>
    obtain rfl := List.length_eq_zero_iff.mp enough.symm
    exact ⟨rfl, shape.trans (List.append_nil _)⟩
  | cons register others ih =>
    cases values with
    | nil => contradiction
    | cons top values =>
      rw [List.reverse_cons, ← List.append_assoc] at shape
      obtain ⟨core, dispatched, holds, left, taken⟩ := holds.pop register shape
      let next : Machine := { machine with core }
      have first : (machine.dispatch (.pop register)).1 = next := by rw [dispatch_eq, dispatched]
      replace left : next.core.stack = rest ++ values.reverse := left
      obtain ⟨values_eq, stack_eq⟩ := ih holds left (Nat.succ.inj enough)
      rw [takes, List.map_cons, run_cons, act, first]
      exact ⟨congrArg₂ _ taken values_eq, stack_eq⟩

/-- On a machine whose stack lies in its memory, which is no larger than words can address, pushes
and pops with any instructions between them that write neither the stack pointer nor memory, and
that no handler carries out, are those of a stack that the size of memory bounds. Cells that the
stack never reaches on the way keep their values. Values that are pushed are popped in reverse
order, as long as there is room for them. -/
theorem run_stack (machine : Machine) (small : machine.core.memory.size ≤ 2 ^ 63)
    (within : machine.core.cpu.registers.stackPointer.toNat ≤ machine.core.memory.size)
    (instructions : List Instruction)
    (unlearnt : ∀ instruction ∈ instructions,
      machine.core.handler? machine.handlers instruction = none)
    (respects : ∀ instruction ∈ instructions, instruction.respectsStack) :
    let capacity := machine.core.memory.size
    let reached := machine.run (instructions.map .dispatch)
    reached.StacksUpTo capacity ∧
    (∀ position,
      (∀ earlier, earlier <+: instructions →
        (machine.run (earlier.map .dispatch)).core.stack.length ≤ position) →
      reached.core.memory.get position = machine.core.memory.get position) ∧
    ∀ pushed popped : List Register, popped.length = pushed.length →
      reached.core.stack.length + pushed.length ≤ capacity →
      let filled := reached.run (pushed.map fun register => .dispatch (.push register))
      filled.takes popped = (pushed.map reached.core.get).reverse ∧
        (filled.run (popped.map fun register => .dispatch (.pop register))).core.stack =
          reached.core.stack := by
  intro capacity reached
  have holds : machine.core.HoldsStack capacity := ⟨small, rfl, within⟩
  have after : reached.core.HoldsStack capacity := holdsStack_run holds unlearnt respects
  refine ⟨stacksUpTo after, fun position spared => cell_run holds unlearnt respects spared, ?_⟩
  intro pushed popped same room filled
  obtain ⟨full, shape⟩ := stack_run_pushes after room
  rw [← List.reverse_reverse (pushed.map reached.core.get)] at shape
  exact takes_eq full shape (by simp [same])

/-- Three cells, of which one is used before two values are pushed and popped in reverse order. -/
theorem run_stack_samples :
    let machine : Machine := { core := { memory := .blank 3 } }
    let instructions : List Instruction :=
      [.load (.register .ax) 7, .push .ax, .compare .ax 1, .pop .bx]
    let reached := machine.run (instructions.map .dispatch)
    let filled := reached.run [.dispatch (.push .ax), .dispatch (.push .cx)]
    reached.StacksUpTo 3 ∧ reached.core.get .bx = 7 ∧
      (∀ position, 1 ≤ position → reached.core.memory.get position = 0) ∧
      filled.takes [.cx, .bx] = [0, 7] := by
  intro machine instructions reached filled
  obtain ⟨bounded, spared, order⟩ :=
    run_stack machine (by decide) (by decide) instructions (by decide) (by decide)
  have shallow : ∀ earlier ∈ instructions.inits,
      (machine.run (earlier.map .dispatch)).core.stack.length ≤ 1 := by decide
  refine ⟨bounded, by decide, ?_, (order [.ax, .cx] [.cx, .bx] rfl (by decide)).1⟩
  intro position beyond
  rw [spared position]
  · exact Memory.get_blank 3 position
  · intro earlier begins
    exact Nat.le_trans (shallow earlier ((List.mem_inits _ _).mpr begins)) beyond

end Machine

end RegisterMachine
