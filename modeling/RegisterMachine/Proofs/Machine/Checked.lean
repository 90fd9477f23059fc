import Mathlib.Algebra.Ring.Int.Defs
import Mathlib.Algebra.Ring.Nat
import RegisterMachine.Proofs.Machine.Agreement
import RegisterMachine.Proofs.Memory

/-! # Checked instructions

The machine counts, indexes and casts without looking where that is known to be safe. Here every
such operation is checked, and slips where it would leave its range or a stack pointer beyond memory
would turn into the address of a cell. An instruction of a program that is not too long does not
slip in memory that is not too large, whatever stands in the registers, and does what it does
unchecked.
-/

namespace RegisterMachine

/-- How an operation leaves its range. -/
inductive Slip where
  | instructionPointer
  | stackPointer
  | cell
  | slice
  | alias
  | quotient
  | remainder
  deriving DecidableEq, Repr

@[simp] theorem ok_bind {α β : Type} (value : α) (use : α → Except Slip β) :
    (Except.ok value >>= use) = use value := rfl

/-! ## Arithmetic -/

namespace Word

/-- The quotient cut off towards zero, where it is a word. -/
def quotient? (left right : Word) : Option Word :=
  if right = 0 then none else ofInt? (Int.tdiv left.toInt right.toInt)

/-- The remainder, which must be left by a quotient. -/
def checkedRemainder (left right : Word) : Except Slip Word :=
  if (quotient? left right).isSome then .ok (left % right) else .error .remainder

/-- One less, which must be a word. -/
def checkedPredecessor (word : Word) : Except Slip Word :=
  match ofInt? (word.toInt - 1) with
  | some less => .ok less
  | none => .error .quotient

/-- The quotient rounded down, got from the one cut off towards zero. -/
def checkedQuotient? (left right : Word) : Except Slip (Option Word) :=
  match quotient? left right with
  | none => .ok none
  | some quotient => do
    let remainder ← checkedRemainder left right
    if remainder ≠ 0 ∧ ¬(left < 0 ↔ right < 0) then some <$> checkedPredecessor quotient
    else .ok (some quotient)

theorem toInt_ne_zero {word : Word} : word.toInt ≠ 0 ↔ word ≠ 0 := by
  rw [Ne, Ne, ← Int64.toInt_inj, Int64.toInt_zero]

private theorem toInt_neg_iff {word : Word} : word.toInt < 0 ↔ word < 0 := by
  rw [Int64.lt_iff_toInt_lt, Int64.toInt_zero]

theorem fdiv_eq (left : Word) {right : Word} (nonzero : right ≠ 0) :
    Int.fdiv left.toInt right.toInt = Int.tdiv left.toInt right.toInt -
      if left % right ≠ 0 ∧ ¬(left < 0 ↔ right < 0) then 1 else 0 := by
  rw [Int.fdiv_eq_tdiv]
  simp only [← toInt_ne_zero, ← toInt_neg_iff, Int64.toInt_mod, Int.dvd_iff_tmod_eq_zero]
  rcases Int.lt_or_gt_of_ne (toInt_ne_zero.mpr nonzero) with negative | positive
  · rw [Int.sign_eq_neg_one_of_neg negative]
    split_ifs <;> omega
  · rw [Int.sign_eq_one_of_pos positive]
    split_ifs <;> omega

/-- A quotient that leaves a rest is a word, and so is the number before it. -/
theorem within_of_rest (left : Word) {right : Word} (nonzero : right ≠ 0)
    (rest : left % right ≠ 0) :
    least < Int.tdiv left.toInt right.toInt ∧ Int.tdiv left.toInt right.toInt ≤ greatest := by
  have nonzero := toInt_ne_zero.mpr nonzero
  rw [← toInt_ne_zero, Int64.toInt_mod] at rest
  -- A divisor of size one leaves no rest, and any other at least halves the dividend.
  have several : right.toInt.natAbs ≠ 1 := by
    intro one
    rcases Int.natAbs_eq_iff.mp one with one | one <;> simp [one] at rest
  have halved : (Int.tdiv left.toInt right.toInt).natAbs ≤ left.toInt.natAbs / 2 := by
    rw [Int.natAbs_tdiv]
    exact Nat.div_le_div_left (by omega) (by omega)
  have low := left.le_toInt
  have high := left.toInt_lt
  unfold least greatest
  omega

/-- The quotient that is cut off is rounded down without a slip. -/
theorem checkedQuotient?_eq (left : Word) {right : Word} (nonzero : right ≠ 0) :
    checkedQuotient? left right = .ok (ofInt? (Int.fdiv left.toInt right.toInt)) := by
  have cut : quotient? left right = ofInt? (Int.tdiv left.toInt right.toInt) := if_neg nonzero
  rw [fdiv_eq left nonzero, checkedQuotient?]
  by_cases rounds : left % right ≠ 0 ∧ ¬(left < 0 ↔ right < 0)
  · obtain ⟨low, high⟩ := within_of_rest left nonzero rounds.1
    have quotient : quotient? left right = some (Int64.ofInt (Int.tdiv left.toInt right.toInt)) :=
      cut.trans (if_pos ⟨Int.le_of_lt low, high⟩)
    have value := ofInt?_eq_some_iff.mp (cut.symm.trans quotient)
    have less : ofInt? (Int.tdiv left.toInt right.toInt - 1) =
        some (Int64.ofInt (Int.tdiv left.toInt right.toInt - 1)) := if_pos (by omega)
    rw [if_pos rounds, less, quotient]
    simp only [checkedRemainder, quotient, Option.isSome_some, ↓reduceIte]
    show (if _ then _ else _) = _
    rw [if_pos rounds, checkedPredecessor, value, less]
    rfl
  · rw [if_neg rounds, Int.sub_zero, ← cut]
    cases quotient : quotient? left right with
    | none => rfl
    | some word =>
      simp only [checkedRemainder, quotient, Option.isSome_some, ↓reduceIte]
      exact if_neg rounds

end Word

/-- The result of an operator, with the rounding of quotients checked. -/
def Operator.checkedApply (left right : Word) (operator : Operator) :
    Except Slip (Except ArithmeticFault Word) :=
  match operator with
  | divide =>
    if right = 0 then .ok (.error .divisionByZero)
    else do
      match ← Word.checkedQuotient? left right with
      | some quotient => .ok (.ok quotient)
      | none => .ok (.error .overflow)
  | _ => .ok (operator.apply left right)

private theorem Operator.checkedApply_eq (left right : Word) (operator : Operator) :
    operator.checkedApply left right = .ok (operator.apply left right) := by
  cases operator with
  | divide =>
    rw [checkedApply, apply]
    split
    · rfl
    · next nonzero =>
      rw [Word.checkedQuotient?_eq left nonzero, exact]
      cases Word.ofInt? (Int.fdiv left.toInt right.toInt) <;> rfl
  | _ => rfl

/-! ## Pointers and memory -/

def checkedNextIp (ip : Nat) : Except Slip Nat :=
  if ip + 1 < UInt64.size then .ok (ip + 1) else .error .instructionPointer

def checkedNextStackPointer (stackPointer : UInt64) : Except Slip UInt64 :=
  if stackPointer.toNat + 1 < UInt64.size then .ok (stackPointer + 1) else .error .stackPointer

theorem toInt_toInt64 (number : UInt64) :
    number.toInt64.toInt =
      if number.toNat < 2 ^ 63 then (number.toNat : Int) else number.toNat - 2 ^ 64 := by
  show number.toBitVec.toInt = _
  rw [BitVec.toInt_eq_toNat_cond]
  simp only [UInt64.toNat_toBitVec]
  split <;> split <;> omega

namespace Memory

variable {memory : Memory} {stackPointer : UInt64} {index : Nat}

def checkedGet (memory : Memory) (index : Nat) : Except Slip Word :=
  match memory.cells[index]? with
  | some value => .ok value
  | none => .error .cell

def checkedSet (memory : Memory) (index : Nat) (value : Word) : Except Slip Memory :=
  if index < memory.size then .ok (memory.set index value) else .error .cell

def checkedRead (memory : Memory) (address : Word) : Except Slip (Except BoundsFault Word) :=
  match memory.index? address with
  | some index => Except.ok <$> memory.checkedGet index
  | none => .ok (.error (.read address memory.size))

def checkedWrite (memory : Memory) (address value : Word) :
    Except Slip (Except BoundsFault Memory) :=
  match memory.index? address with
  | some index => Except.ok <$> memory.checkedSet index value
  | none => .ok (.error (.write address memory.size))

def checkedTake (memory : Memory) (length : Nat) : Except Slip (List Word) :=
  if length ≤ memory.size then .ok (memory.cells.toList.take length) else .error .slice

/-- A stack pointer as an address, which has no cell unless the stack pointer has one. -/
def checkedAddress (memory : Memory) (stackPointer : UInt64) : Except Slip Word :=
  if memory.size ≤ stackPointer.toNat ∧ (memory.index? stackPointer.toInt64).isSome then
    .error .alias
  else .ok stackPointer.toInt64

private theorem checkedRead_eq (memory : Memory) (address : Word) :
    memory.checkedRead address = .ok (memory.read address) := by
  rw [checkedRead, read]
  cases found : memory.index? address with
  | none => rfl
  | some index =>
    have cell : memory.cells[index]? = some (memory.get index) := by
      rw [get, Array.getElem?_eq_getElem (lt_of_index?_eq_some found)]
      rfl
    simp only [checkedGet, cell]
    rfl

private theorem checkedWrite_eq (memory : Memory) (address value : Word) :
    memory.checkedWrite address value = .ok (memory.write address value) := by
  rw [checkedWrite, write]
  cases found : memory.index? address with
  | none => rfl
  | some index =>
    simp only [checkedSet, if_pos (lt_of_index?_eq_some found)]
    rfl

/-- A stack pointer beyond memory is the address of no cell. -/
theorem index?_toInt64_of_le (beyond : memory.size ≤ stackPointer.toNat) :
    memory.index? stackPointer.toInt64 = none := by
  have value := toInt_toInt64 stackPointer
  have bound := stackPointer.toNat_lt
  rw [index?_eq_none_iff]
  split at value <;> omega

/-- A stack pointer within memory is the address of its cell. -/
theorem index?_toInt64_of_lt (inside : stackPointer.toNat < memory.size)
    (small : memory.size ≤ 2 ^ 63) :
    memory.index? stackPointer.toInt64 = some stackPointer.toNat := by
  have value := toInt_toInt64 stackPointer
  rw [if_pos (by omega)] at value
  exact index?_eq_some_iff.mpr ⟨value, inside⟩

private theorem checkedAddress_eq (memory : Memory) (stackPointer : UInt64) :
    memory.checkedAddress stackPointer = .ok stackPointer.toInt64 := by
  refine if_neg ?_
  rintro ⟨beyond, found⟩
  rw [index?_toInt64_of_le beyond] at found
  contradiction

end Memory

namespace Core

variable {core : Core}

/-! ## Instructions -/

def checkedNext (core : Core) : Except Slip Outcome := do
  let ip ← checkedNextIp core.cpu.ip
  .ok (core.setIp ip, none)

/-- Passes on to the next instruction from the core before, where nothing has failed. -/
def checkedAdvance (core : Core) : Outcome → Except Slip Outcome
  | (stepped, none) => do
    let ip ← checkedNextIp core.cpu.ip
    .ok (stepped.setIp ip, none)
  | failed => .ok failed

def checkedCompute (core : Core) (operator : Operator) (register : Register) (value : Word) :
    Except Slip Outcome := do
  match ← operator.checkedApply (core.get register) value with
  | .ok result => (core.set register result).checkedNext
  | .error fault => .ok (core.fail (.arithmetic fault))

def checkedStore (core : Core) (address value : Word) (pass : Core → Except Slip Outcome) :
    Except Slip Outcome := do
  match ← core.memory.checkedWrite address value with
  | .ok memory => pass { core with memory }
  | .error fault => .ok (core.fail (.bounds fault))

def checkedWithCell (core : Core) (address : Word) (use : Word → Except Slip Outcome) :
    Except Slip Outcome := do
  match ← core.memory.checkedRead address with
  | .ok value => use value
  | .error fault => .ok (core.fail (.bounds fault))

def checkedPush (core : Core) (register : Register) : Except Slip Outcome :=
  let stackPointer := core.cpu.registers.stackPointer
  if stackPointer.toNat < core.memory.size then do
    let address ← core.memory.checkedAddress stackPointer
    core.checkedStore address (core.get register) fun core => do
      let stackPointer ← checkedNextStackPointer stackPointer
      (core.setStackPointer stackPointer).checkedNext
  else .ok (core.fail (.bounds (.stackOverflow stackPointer core.memory.size)))

def checkedWithTop (core : Core) (use : Word → Except Slip Outcome) : Except Slip Outcome := do
  let address ← core.memory.checkedAddress (core.cpu.registers.stackPointer - 1)
  core.checkedWithCell address use

def checkedPop (core : Core) (register : Register) : Except Slip Outcome :=
  let stackPointer := core.cpu.registers.stackPointer
  if stackPointer = 0 then .ok (core.fail (.bounds .stackUnderflow))
  else core.checkedWithTop fun value =>
    ((core.setStackPointer (stackPointer - 1)).set register value).checkedNext

def checkedPeek (core : Core) : Except Slip Outcome :=
  if core.cpu.registers.stackPointer = 0 then (core.emit "Stack is empty").checkedNext
  else core.checkedWithTop fun value => (core.emit s!"Stack top: {value}").checkedNext

def checkedPrintStack (core : Core) : Except Slip Outcome := do
  let stackPointer := core.cpu.registers.stackPointer
  let cells ← core.memory.checkedTake (min stackPointer.toNat core.memory.size)
  let lines := cells.zipIdx.map fun (value, index) => s!"Stack[{index}]: {value}"
  ((core.emit s!"SP points to: {stackPointer}").emitAll lines).checkedNext

def checkedPrintStackPointer (core : Core) : Except Slip Outcome := do
  let value ← core.memory.checkedAddress core.cpu.registers.stackPointer
  (core.emit s!"{Target.stackPointer.label}: {value}").checkedNext

/-- Carries out a built-in instruction with its operations checked. -/
def checkedStep (core : Core) (instruction : Instruction) : Except Slip Outcome :=
  match instruction with
  | .setIp _ | .jump _ | .jumpIf .. | .skip _ | .halt => .ok (core.step instruction)
  | .arithmetic operator register value => core.checkedCompute operator register value
  | .storeCell address register =>
    core.checkedStore address (core.get register) checkedNext
  | .loadCell address register =>
    core.checkedWithCell address fun value => (core.set register value).checkedNext
  | .printCell address =>
    core.checkedWithCell address fun value =>
      (core.emit s!"Memory[{address}] = {value}").checkedNext
  | .push register => core.checkedPush register
  | .pop register => core.checkedPop register
  | .peek => core.checkedPeek
  | .printStack => core.checkedPrintStack
  | .print .stackPointer => core.checkedPrintStackPointer
  | _ => core.checkedAdvance (core.step instruction)

def checkedSettle (fetched : Nat) (core : Core) (fault : Fault) : Except Slip Core := do
  let stop := fun core : Core =>
    if halts core.config.unknownMnemonic fault then core.halt else core
  if fault.isFatal then .ok (stop core)
  else
    let ip ← checkedNextIp fetched
    .ok (stop (core.setIp ip))

def checkedDispatch (core : Core) (instruction : Instruction) : Except Slip Outcome := do
  match ← core.checkedStep instruction with
  | (stepped, none) => .ok (stepped, none)
  | (stepped, some fault) =>
    let settled ← stepped.checkedSettle core.cpu.ip fault
    .ok (settled, some fault)

/-! ## Instructions do not slip -/

theorem checkedNextIp_eq {ip : Nat} (room : ip + 1 < UInt64.size) :
    checkedNextIp ip = .ok (ip + 1) := if_pos room

private theorem checkedNext_eq (room : core.cpu.ip + 1 < UInt64.size) :
    core.checkedNext = .ok core.next := by
  rw [checkedNext, checkedNextIp_eq room]
  rfl

private theorem checkedAdvance_eq (room : core.cpu.ip + 1 < UInt64.size) (instruction : Instruction)
    (straight : instruction.redirects = false) (runs : instruction ≠ .halt) :
    core.checkedAdvance (core.step instruction) = .ok (core.step instruction) := by
  obtain ⟨effect, suits, same⟩ := core.exists_step_eq instruction
  rw [same]
  cases suits with
  | fail fault => rfl
  | next change =>
    show (checkedNextIp core.cpu.ip >>= _) = _
    rw [checkedNextIp_eq room, ok_bind]
    simp [undergo, next, advance, setIp]
  | redirect ip turns =>
    rw [straight] at turns
    contradiction
  | halt halts => exact absurd halts runs

private theorem checkedCompute_eq (room : core.cpu.ip + 1 < UInt64.size) (operator : Operator)
    (register : Register) (value : Word) :
    core.checkedCompute operator register value = .ok (core.compute operator register value) := by
  rw [checkedCompute, compute, operator.checkedApply_eq]
  cases operator.apply (core.get register) value with
  | error fault => rfl
  | ok result => exact checkedNext_eq room

private theorem checkedWithCell_eq {use : Word → Except Slip Outcome} {use' : Word → Outcome}
    (uses : ∀ value, use value = .ok (use' value)) (address : Word) :
    core.checkedWithCell address use = .ok (core.withCell address use') := by
  rw [checkedWithCell, withCell, core.memory.checkedRead_eq]
  cases core.memory.read address with
  | error fault => rfl
  | ok value => exact uses value

private theorem checkedStore_eq (room : core.cpu.ip + 1 < UInt64.size) (address : Word)
    (register : Register) :
    core.checkedStore address (core.get register) checkedNext =
      .ok (core.storeCell address register) := by
  rw [checkedStore, storeCell, core.memory.checkedWrite_eq, Memory.write]
  cases core.memory.index? address with
  | none => rfl
  | some index => exact checkedNext_eq room

private theorem checkedPush_eq (room : core.cpu.ip + 1 < UInt64.size)
    (small : core.memory.size ≤ Config.maximalCells) (register : Register) :
    core.checkedPush register = .ok (core.push register) := by
  rw [checkedPush, push]
  dsimp only
  split
  · next inside =>
    have above : core.cpu.registers.stackPointer.toNat + 1 < UInt64.size := by
      unfold Config.maximalCells at small
      unfold UInt64.size
      omega
    rw [core.memory.checkedAddress_eq, ok_bind, checkedStore, core.memory.checkedWrite_eq,
      ok_bind, Memory.write, Memory.index?_toInt64_of_lt inside (Nat.le_trans small (by decide))]
    dsimp only
    rw [checkedNextStackPointer, if_pos above, ok_bind]
    exact checkedNext_eq room
  · rfl

private theorem checkedWithTop_eq {use : Word → Except Slip Outcome} {use' : Word → Outcome}
    (uses : ∀ value, use value = .ok (use' value)) :
    core.checkedWithTop use =
      .ok (core.withCell (core.cpu.registers.stackPointer - 1).toInt64 use') := by
  rw [checkedWithTop, core.memory.checkedAddress_eq]
  exact checkedWithCell_eq uses _

private theorem checkedPop_eq (room : core.cpu.ip + 1 < UInt64.size) (register : Register) :
    core.checkedPop register = .ok (core.pop register) := by
  rw [checkedPop, pop]
  split
  · rfl
  · exact checkedWithTop_eq fun _ => checkedNext_eq room

private theorem checkedPeek_eq (room : core.cpu.ip + 1 < UInt64.size) :
    core.checkedPeek = .ok core.peek := by
  rw [checkedPeek, peek]
  split
  · exact checkedNext_eq room
  · exact checkedWithTop_eq fun _ => checkedNext_eq room

private theorem checkedPrintStack_eq (room : core.cpu.ip + 1 < UInt64.size) :
    core.checkedPrintStack = .ok core.printStack := by
  have cells : core.memory.cells.toList.take
      (min core.cpu.registers.stackPointer.toNat core.memory.size) =
        core.memory.cells.toList.take core.cpu.registers.stackPointer.toNat :=
    List.take_eq_take_min.symm
  rw [checkedPrintStack, printStack, Memory.checkedTake, if_pos (Nat.min_le_right _ _), cells]
  refine checkedNext_eq ?_
  rw [emitAll_eq]
  exact room

/-- No instruction slips that has another place after its own. -/
theorem checkedStep_eq (room : core.cpu.ip + 1 < UInt64.size)
    (small : core.memory.size ≤ Config.maximalCells) (instruction : Instruction) :
    core.checkedStep instruction = .ok (core.step instruction) := by
  have plain := checkedAdvance_eq room instruction
  cases instruction with
  | setIp | jump | jumpIf | skip | halt => rfl
  | arithmetic operator register value => exact checkedCompute_eq room operator register value
  | storeCell address register => exact checkedStore_eq room address register
  | loadCell address register =>
    refine checkedWithCell_eq ?_ address
    intro value
    exact checkedNext_eq room
  | printCell address =>
    refine checkedWithCell_eq ?_ address
    intro value
    exact checkedNext_eq room
  | push register => exact checkedPush_eq room small register
  | pop register => exact checkedPop_eq room register
  | peek => exact checkedPeek_eq room
  | printStack => exact checkedPrintStack_eq room
  | print target =>
    cases target with
    | register register => exact plain rfl nofun
    | stackPointer =>
      show core.checkedPrintStackPointer = _
      rw [checkedPrintStackPointer, core.memory.checkedAddress_eq]
      exact checkedNext_eq room
  | _ => exact plain rfl nofun

private theorem checkedSettle_eq {fetched : Nat} (room : fetched + 1 < UInt64.size) (core : Core)
    (fault : Fault) : core.checkedSettle fetched fault = .ok (core.settle fetched fault) := by
  rw [checkedSettle, settle]
  cases fatal : fault.isFatal with
  | true => rfl
  | false =>
    show (checkedNextIp fetched >>= _) = _
    rw [checkedNextIp_eq room]
    rfl

/-- A dispatched instruction does not slip that has another place after its own. -/
theorem checkedDispatch_eq (room : core.cpu.ip + 1 < UInt64.size)
    (small : core.memory.size ≤ Config.maximalCells) (instruction : Instruction) :
    core.checkedDispatch instruction = .ok (core.dispatch [] instruction) := by
  rw [checkedDispatch, checkedStep_eq room small, dispatch_nil]
  rcases core.step instruction with ⟨stepped, _ | fault⟩
  · rfl
  · show (stepped.checkedSettle core.cpu.ip fault >>= _) = _
    rw [checkedSettle_eq room]
    rfl

/-- An instruction in the last place of all has no next one. -/
example : ({ cpu := { ip := lastIp }, memory := .blank 1 } : Core).checkedDispatch .banner =
    .error .instructionPointer := rfl

end Core

end RegisterMachine
