import RegisterMachine.Instruction.Decode
import RegisterMachine.Listing.Labels

/-! # Assembling

A listing is assembled in two passes. The labels of the whole listing are checked first; then the
operand of each statement is built by the form that its mnemonic takes, and the instruction is
decoded. The first error of either pass is reported with its line. Listing a program writes one
instruction a line.
-/

namespace RegisterMachine.Listing

inductive AssembleError where
  | label (error : LabelError)
  | decode (line : Nat) (error : DecodeError)
  | cellShape (line : Nat) (mnemonic : String)
  | cellAddress (line : Nat) (text : String)
  | cellRegister (line : Nat) (text : String)
  | fileShape (line : Nat)
  deriving DecidableEq, Repr

def AssembleError.message : AssembleError → String
  | label (.empty line) => s!"line {line}: empty label"
  | label (.duplicate line name) => s!"line {line}: duplicate label `{name}`"
  | decode line error => s!"line {line}: {error.message}"
  | cellShape line mnemonic => s!"line {line}: expected `{mnemonic} <addr> <reg>`"
  | cellAddress line text => s!"line {line}: bad address {Text.quoted text}"
  | cellRegister line text => s!"line {line}: unknown register {Text.quoted text}"
  | fileShape line => s!"line {line}: expected `write <name> <content...>`"

/-- A single word as an operand: a number if it is a numeral, and text otherwise. -/
def scalar (word : List Char) : Operand :=
  match Text.word? word with
  | some value => .integer value
  | none => .text (String.ofList word)

def joined (words : List (List Char)) : Operand := .text (String.ofList (Text.unwords words))

/-- The operand that words make where no form asks for another. -/
def plainOperand : List (List Char) → Option Operand
  | [] => none
  | [word] => some (scalar word)
  | words => some (joined words)

/-- The operand that names a place in the program, by a label or otherwise. -/
def destinationOperand (position? : String → Option Nat) : List (List Char) → Option Operand
  | [word] =>
    match position? (String.ofList word) with
    | some position => some (.integer (Int64.ofNat position))
    | none => some (scalar word)
  | words => plainOperand words

def nameOperand : List (List Char) → Option Operand
  | [] => none
  | words => some (joined words)

def cellOperand (statement : Statement) : Except AssembleError Operand :=
  match statement.arguments with
  | [address, register] =>
    match Text.word? address with
    | none => .error (.cellAddress statement.line (String.ofList address))
    | some value =>
      match Register.ofName? (String.ofList register) with
      | none => .error (.cellRegister statement.line (String.ofList register))
      | some register => .ok (.cell value register)
  | _ => .error (.cellShape statement.line statement.mnemonic)

/-- The operand that is a file's name and content. Quoted content is kept as it is. -/
def fileOperand (statement : Statement) : Except AssembleError Operand :=
  match Text.firstWord? statement.rest with
  | none => .error (.fileShape statement.line)
  | some (name, content) =>
    .ok (.file (String.ofList name)
      (String.ofList ((unquote? content).getD (Text.squeeze content))))

def Statement.operand (position? : String → Option Nat) (statement : Statement) :
    Except AssembleError (Option Operand) :=
  match Mnemonic.form? statement.mnemonic with
  | some (.cell _) => (cellOperand statement).map some
  | some (.file _) => (fileOperand statement).map some
  | some (.name _) | some (.register _) => .ok (nameOperand statement.arguments)
  | some (.destination _) => .ok (destinationOperand position? statement.arguments)
  | _ => .ok (plainOperand statement.arguments)

def Statement.instruction (position? : String → Option Nat) (statement : Statement) :
    Except AssembleError Instruction := do
  let operand ← statement.operand position?
  (Instruction.decode statement.mnemonic operand).mapError (.decode statement.line)

/-- The program of a listing. -/
def assemble (source : String) : Except AssembleError (List Instruction) :=
  let sections := sections source.toList
  let definitions := definitions sections
  match labelError? definitions with
  | some error => .error (.label error)
  | none => (statements sections).mapM (Statement.instruction (position? definitions))

/-- The listing of a program. -/
def ofProgram (program : List Instruction) : String :=
  String.intercalate "\n" (program.map Instruction.written)

end RegisterMachine.Listing
