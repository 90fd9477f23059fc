import RegisterMachine.Word

/-! # Memory

Memory is a fixed number of cells, all zero at first. Addresses are words, so a negative one is a
fault like one past the end. The stack lies at the bottom of memory and grows upwards.
-/

namespace RegisterMachine

/-- An access beyond memory or beyond the stack. -/
inductive BoundsFault where
  | read (address : Word) (size : Nat)
  | write (address : Word) (size : Nat)
  | stackOverflow (stackPointer : UInt64) (size : Nat)
  | stackUnderflow
  deriving DecidableEq, Repr

def BoundsFault.message : BoundsFault → String
  | read address size => s!"memory read out of bounds: {address} (size {size})"
  | write address size => s!"memory write out of bounds: {address} (size {size})"
  | stackOverflow stackPointer size => s!"stack overflow: sp={stackPointer} (size {size})"
  | stackUnderflow => "stack underflow"

/-- A fixed number of cells. -/
structure Memory where
  cells : Array Word
  deriving DecidableEq, Repr

namespace Memory

/-- Memory of the given size with every cell zero. -/
def blank (size : Nat) : Memory := ⟨Array.replicate size 0⟩

def size (memory : Memory) : Nat := memory.cells.size

/-- The position of the cell at an address, if there is one. -/
def index? (memory : Memory) (address : Word) : Option Nat :=
  address.index?.filter fun index => index < memory.size

/-- The cell at a position; there is nothing but zero beyond the end. -/
def get (memory : Memory) (index : Nat) : Word := memory.cells[index]?.getD 0

/-- Memory with one cell changed, or unchanged where there is no such cell. -/
def set (memory : Memory) (index : Nat) (value : Word) : Memory :=
  ⟨memory.cells.setIfInBounds index value⟩

def read (memory : Memory) (address : Word) : Except BoundsFault Word :=
  match memory.index? address with
  | some index => .ok (memory.get index)
  | none => .error (.read address memory.size)

def write (memory : Memory) (address value : Word) : Except BoundsFault Memory :=
  match memory.index? address with
  | some index => .ok (memory.set index value)
  | none => .error (.write address memory.size)

/-- Memory of the same size with every cell zero. -/
def clear (memory : Memory) : Memory := blank memory.size

@[simp] theorem size_blank (size : Nat) : (blank size).size = size := by
  simp [blank, Memory.size]

@[simp] theorem size_set (memory : Memory) (index : Nat) (value : Word) :
    (memory.set index value).size = memory.size := by
  simp [set, size]

@[simp] theorem size_clear (memory : Memory) : memory.clear.size = memory.size := by
  simp [clear]

@[simp] theorem get_blank (size index : Nat) : (blank size).get index = 0 := by
  simp only [get, blank, Array.getElem?_replicate]
  split <;> rfl

theorem get_set (memory : Memory) (index other : Nat) (value : Word)
    (inside : index < memory.size) :
    (memory.set index value).get other = if other = index then value else memory.get other := by
  simp only [get, set, Array.getElem?_setIfInBounds]
  split
  · next same =>
    subst same
    simp [show index < memory.cells.size from inside]
  · next different => simp [Ne.symm different]

end Memory

end RegisterMachine
