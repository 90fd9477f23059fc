import RegisterMachine.Word

/-! # Instructions

The machine has three general registers and a stack pointer. An instruction acts on them, on memory,
on the file tree or on the instruction pointer. A mnemonic outside the built-in table is kept with
its operand as an instruction of its own, for a machine that has learnt it.
-/

namespace RegisterMachine

inductive Register where
  | ax
  | bx
  | cx
  deriving DecidableEq, Repr

inductive Target where
  | register (register : Register)
  | stackPointer
  deriving DecidableEq, Repr

/-- An arithmetic operator. Division rounds down; a remainder has the dividend's sign. -/
inductive Operator where
  | add
  | subtract
  | multiply
  | divide
  | modulo
  deriving DecidableEq, Repr

/-- When a conditional jump is taken, by the outcome of the last comparison. -/
inductive Condition where
  | equal
  | notEqual
  | greater
  | less
  deriving DecidableEq, Repr

/-- What stands beside a mnemonic. -/
inductive Operand where
  | integer (value : Word)
  | text (text : String)
  | cell (address : Word) (register : Register)
  | file (name : String) (content : String)
  deriving DecidableEq, Repr

/-- One step of a program. Addresses count instructions from zero. -/
inductive Instruction where
  | load (target : Target) (value : Word)
  | setIp (address : Nat)
  | copy (source destination : Register)
  | swap (left right : Register)
  | arithmetic (operator : Operator) (register : Register) (value : Word)
  | increment (target : Target)
  | decrement (target : Target)
  | compare (register : Register) (value : Word)
  | jumpIf (condition : Condition) (address : Nat)
  | jump (address : Nat)
  | halt
  | skip (distance : Nat)
  | storeCell (address : Word) (register : Register)
  | loadCell (address : Word) (register : Register)
  | printCell (address : Word)
  | clearMemory
  | push (register : Register)
  | pop (register : Register)
  | peek
  | printStack
  | makeDirectory (name : String)
  | changeDirectory (name : String)
  | listDirectory
  | writeFile (name : String) (content : String)
  | readFile (name : String)
  | remove (name : String)
  | print (target : Target)
  | banner
  | firmwareInterrupt
  | disableInterrupts
  | other (name : String) (operand : Option Operand)
  deriving DecidableEq, Repr

namespace Register

def all : List Register := [ax, bx, cx]

def name : Register → String
  | ax => "ax"
  | bx => "bx"
  | cx => "cx"

def ofName? : String → Option Register
  | "ax" => some ax
  | "bx" => some bx
  | "cx" => some cx
  | _ => none

theorem ofName?_name (register : Register) : ofName? register.name = some register := by
  cases register <;> rfl

end Register

namespace Target

def all : List Target := Register.all.map register ++ [stackPointer]

def name : Target → String
  | register r => r.name
  | stackPointer => "sp"

def ofName? : String → Option Target
  | "sp" => some stackPointer
  | text => (Register.ofName? text).map register

/-- The name that printed values carry. -/
def label : Target → String
  | register .ax => "AX"
  | register .bx => "BX"
  | register .cx => "CX"
  | stackPointer => "SP"

theorem ofName?_name (target : Target) : ofName? target.name = some target := by
  cases target with
  | register r => cases r <;> rfl
  | stackPointer => rfl

end Target

namespace Operator

def all : List Operator := [add, subtract, multiply, divide, modulo]

def name : Operator → String
  | add => "add"
  | subtract => "sub"
  | multiply => "mul"
  | divide => "div"
  | modulo => "mod"

end Operator

/-- The mnemonic of the jump that tests the condition. -/
def Condition.mnemonic : Condition → String
  | equal => "jmpIfEqual"
  | notEqual => "jmpIfNotEqual"
  | greater => "jmpIfGreater"
  | less => "jmpIfLess"

namespace Instruction

def mnemonic : Instruction → String
  | load target _ => "copy2" ++ target.name
  | setIp _ => "copy2ip"
  | copy source destination => "copy" ++ source.name ++ "2" ++ destination.name
  | swap left right => "swap" ++ left.name ++ right.name
  | arithmetic operator register _ => operator.name ++ "2" ++ register.name
  | increment target => "inc" ++ target.name
  | decrement target => "dec" ++ target.name
  | compare register _ => "cmp" ++ register.name
  | jumpIf condition _ => condition.mnemonic
  | jump _ => "jmp"
  | halt => "halt"
  | skip _ => "padding"
  | storeCell _ _ => "storeMem"
  | loadCell _ _ => "loadMem"
  | printCell _ => "printMem"
  | clearMemory => "clearMem"
  | push _ => "push"
  | pop _ => "pop"
  | peek => "peek"
  | printStack => "printStack"
  | makeDirectory _ => "mkdir"
  | changeDirectory _ => "cd"
  | listDirectory => "ls"
  | writeFile _ _ => "write"
  | readFile _ => "read"
  | remove _ => "rm"
  | print target => "print" ++ target.name
  | banner => "magicstr"
  | firmwareInterrupt => "biosInterrupt"
  | disableInterrupts => "disableInterrupt"
  | other name _ => name

/-- The operand that stands beside the mnemonic. An address is written as the word with its bits. -/
def operand : Instruction → Option Operand
  | load _ value | arithmetic _ _ value | compare _ value => some (.integer value)
  | setIp address | jumpIf _ address | jump address => some (.integer (Int64.ofNat address))
  | skip distance => some (.integer (Int64.ofNat distance))
  | storeCell address register | loadCell address register => some (.cell address register)
  | printCell address => some (.integer address)
  | push register | pop register => some (.text register.name)
  | makeDirectory name | changeDirectory name | readFile name | remove name => some (.text name)
  | writeFile name content => some (.file name content)
  | other _ operand => operand
  | copy .. | swap .. | increment _ | decrement _ | halt | clearMemory | peek | printStack
  | listDirectory | print _ | banner | firmwareInterrupt | disableInterrupts => none

/-- Whether the instruction is one that only a learnt mnemonic can carry out. -/
def isOther : Instruction → Bool
  | other .. => true
  | _ => false

end Instruction

end RegisterMachine
