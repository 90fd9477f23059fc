import RegisterMachine.Instruction.Written
import RegisterMachine.Text.Numeral
import RegisterMachine.Text.Quoted

/-! # The mnemonic table

Each built-in mnemonic takes one form of operand and makes one kind of instruction from it. Decoding
looks the mnemonic up and reads the operand by that form; a mnemonic outside the table becomes an
instruction of its own, whatever its operand.
-/

namespace RegisterMachine

/-- Why an operand does not suit its mnemonic. -/
inductive OperandProblem where
  | missingInteger
  | notNumeral (text : String)
  | notInteger (operand : Operand)
  | negativeAddress (value : Word)
  | missingName
  | notName (operand : Operand)
  | unknownRegister (name : String)
  | notCell
  | notFile
  deriving DecidableEq, Repr

/-- An operand that a built-in mnemonic refuses. -/
structure DecodeError where
  mnemonic : String
  problem : OperandProblem
  deriving DecidableEq, Repr

def OperandProblem.reason : OperandProblem → String
  | missingInteger => "missing integer operand"
  | notNumeral text => s!"expected integer, got {Text.quoted text}"
  | notInteger operand => s!"expected integer, got `{operand.written}`"
  | negativeAddress value => s!"negative address {value}"
  | missingName => "missing name operand"
  | notName operand => s!"expected a name, got `{operand.written}`"
  | unknownRegister name => s!"unknown register {Text.quoted name}"
  | notCell => "expected \x7baddr, reg\x7d"
  | notFile => "expected \x7bname, content\x7d"

def DecodeError.message (error : DecodeError) : String :=
  s!"invalid operand for {error.mnemonic}: {error.problem.reason}"

namespace Operand

/-- The integer that an operand gives, as a number or as its numeral. -/
def integer? : Option Operand → Except OperandProblem Word
  | some (integer value) => .ok value
  | some (text numeral) =>
    match Text.word? (Text.trim numeral.toList) with
    | some value => .ok value
    | none => .error (.notNumeral numeral)
  | some operand => .error (.notInteger operand)
  | none => .error .missingInteger

/-- The address that an operand gives, which is not negative. -/
def address? (operand : Option Operand) : Except OperandProblem Nat := do
  let value ← integer? operand
  match value.index? with
  | some address => .ok address
  | none => .error (.negativeAddress value)

/-- The name that an operand gives; a number is the name that its numeral spells. -/
def name? : Option Operand → Except OperandProblem String
  | some (text name) => .ok name
  | some (integer value) => .ok (toString value)
  | some operand => .error (.notName operand)
  | none => .error .missingName

def register? (operand : Option Operand) : Except OperandProblem Register := do
  let name ← name? operand
  match Register.ofName? name with
  | some register => .ok register
  | none => .error (.unknownRegister name)

def cell? : Option Operand → Except OperandProblem (Word × Register)
  | some (cell address register) => .ok (address, register)
  | _ => .error .notCell

def file? : Option Operand → Except OperandProblem (String × String)
  | some (file name content) => .ok (name, content)
  | _ => .error .notFile

end Operand

/-- The operand that a mnemonic takes, with the instruction that it makes from one. -/
inductive Form where
  | bare (instruction : Instruction)
  | integer (make : Word → Instruction)
  | destination (make : Nat → Instruction)
  | distance (make : Nat → Instruction)
  | name (make : String → Instruction)
  | register (make : Register → Instruction)
  | cell (make : Word → Register → Instruction)
  | file (make : String → String → Instruction)

/-- Reads the operand that a form takes; a bare form drops any operand. -/
def Form.read (operand : Option Operand) : Form → Except OperandProblem Instruction
  | bare instruction => .ok instruction
  | integer make => (Operand.integer? operand).map make
  | destination make | distance make => (Operand.address? operand).map make
  | name make => (Operand.name? operand).map make
  | register make => (Operand.register? operand).map make
  | cell make => (Operand.cell? operand).map fun found => make found.1 found.2
  | file make => (Operand.file? operand).map fun found => make found.1 found.2

namespace Mnemonic

/-- The mnemonics that stand alone, with their forms. -/
def fixed : List (String × Form) :=
  [("copy2ip", .destination .setIp), ("jmp", .destination .jump),
    ("jmpIfEqual", .destination (.jumpIf .equal)),
    ("jmpIfNotEqual", .destination (.jumpIf .notEqual)),
    ("jmpIfGreater", .destination (.jumpIf .greater)),
    ("jmpIfLess", .destination (.jumpIf .less)),
    ("halt", .bare .halt), ("padding", .distance .skip),
    ("storeMem", .cell .storeCell), ("loadMem", .cell .loadCell),
    ("printMem", .integer .printCell), ("clearMem", .bare .clearMemory),
    ("push", .register .push), ("pop", .register .pop),
    ("peek", .bare .peek), ("printStack", .bare .printStack),
    ("mkdir", .name .makeDirectory), ("cd", .name .changeDirectory),
    ("ls", .bare .listDirectory), ("write", .file .writeFile),
    ("read", .name .readFile), ("rm", .name .remove),
    ("magicstr", .bare .banner), ("biosInterrupt", .bare .firmwareInterrupt),
    ("disableInterrupt", .bare .disableInterrupts)]

/-- Second spellings of mnemonics that stand alone. -/
def aliases : List (String × Form) :=
  [("StoreMem", .cell .storeCell), ("LoadMem", .cell .loadCell),
    ("disableInterupt", .bare .disableInterrupts)]

/-- The ordered pairs of different registers. -/
def registerPairs : List (Register × Register) :=
  [(.ax, .bx), (.ax, .cx), (.bx, .ax), (.bx, .cx), (.cx, .ax), (.cx, .bx)]

/-- The mnemonics built from register names, with their forms. -/
def families : List (String × Form) :=
  (Target.all.map fun target => ("copy2" ++ target.name, Form.integer (.load target))) ++
  (registerPairs.map fun pair =>
    ("copy" ++ pair.1.name ++ "2" ++ pair.2.name, Form.bare (.copy pair.1 pair.2))) ++
  (registerPairs.map fun pair =>
    ("swap" ++ pair.1.name ++ pair.2.name, Form.bare (.swap pair.1 pair.2))) ++
  (Operator.all.flatMap fun operator => Register.all.map fun register =>
    (operator.name ++ "2" ++ register.name, Form.integer (.arithmetic operator register))) ++
  (Target.all.map fun target => ("inc" ++ target.name, Form.bare (.increment target))) ++
  (Target.all.map fun target => ("dec" ++ target.name, Form.bare (.decrement target))) ++
  (Register.all.map fun register => ("cmp" ++ register.name, Form.integer (.compare register))) ++
  (Target.all.map fun target => ("print" ++ target.name, Form.bare (.print target)))

/-- Every built-in mnemonic with its form. -/
def table : List (String × Form) := fixed ++ aliases ++ families

def form? (mnemonic : String) : Option Form := table.lookup mnemonic

end Mnemonic

namespace Instruction

/-- The instruction that a mnemonic and an operand stand for. -/
def decode (mnemonic : String) (operand : Option Operand) : Except DecodeError Instruction :=
  match Mnemonic.form? mnemonic with
  | some form => (form.read operand).mapError fun problem => ⟨mnemonic, problem⟩
  | none => .ok (.other mnemonic operand)

end Instruction

end RegisterMachine
