import RegisterMachine.Instruction.Json
import RegisterMachine.Json.Any

/-! # Reading instructions from JSON

An operand is read as any value and then tried by its shapes: a word, a string, an address with a
register, a name with a content. Members that a shape does not know are ignored, and one that it
knows may not be repeated. An instruction is an object or an array of one or two items, and is
decoded once its end has been read.
-/

namespace RegisterMachine

/-- The value of a member that occurs exactly once. -/
def Json.onlyMember? (name : String) (members : List (String × Json.Value)) : Option Json.Value :=
  match members.filter fun member => member.1 == name with
  | [(_, value)] => some value
  | _ => none

/-- The register that a value names, as a string or as the only key of an object, over null. -/
def Register.ofJson? : Json.Value → Option Register
  | .text name => ofName? name
  | .object [(name, .null)] => ofName? name
  | _ => none

namespace Operand

def cellOfMembers? (members : List (String × Json.Value)) : Option Operand := do
  let .integer address ← Json.onlyMember? "addr" members | none
  let register ← Json.onlyMember? "reg" members
  return .cell (← Word.ofInt? address) (← Register.ofJson? register)

def fileOfMembers? (members : List (String × Json.Value)) : Option Operand := do
  let .text name ← Json.onlyMember? "name" members | none
  let .text content ← Json.onlyMember? "content" members | none
  return .file name content

/-- The operand that a value has the shape of. -/
def ofJson? : Json.Value → Option Operand
  | .integer value => (Word.ofInt? value).map integer
  | .text value => some (.text value)
  | .object members => (cellOfMembers? members).or (fileOfMembers? members)
  | _ => none

/-- Reads an operand with at most the given number of levels. -/
def reader (depth : Nat) : Json.Reader Operand := fun text => do
  let (value, rest) ← Json.value depth text
  match ofJson? value with
  | some operand => return (operand, rest)
  | none => .error (.noShape "Operand")

def ofJsonText (text : String) : Except Json.Problem Operand :=
  Json.whole (reader Json.maximalDepth) text.toList

end Operand

namespace Instruction

structure Parts where
  mnemonic : Option String := none
  operand : Option (Option Operand) := none

def member (depth : Nat) (parts : Parts) : Json.Reader Parts := fun text => do
  let (name, rest) ← Json.key text
  if name == "op" then
    if parts.mnemonic.isSome then .error (.repeatedField name)
    let (_, rest) ← Json.mark ':' rest
    let (mnemonic, rest) ← Json.string "a string" rest
    return ({ parts with mnemonic := some mnemonic }, rest)
  else if name == "arg" then
    if parts.operand.isSome then .error (.repeatedField name)
    let (_, rest) ← Json.mark ':' rest
    let (operand, rest) ← Json.nullable (Operand.reader depth) rest
    return ({ parts with operand := some operand }, rest)
  else
    let (_, rest) ← Json.mark ':' rest
    let (_, rest) ← Json.skipValue rest
    return (parts, rest)

/-- Reads the members of an instruction, of which the mnemonic is required. -/
def fromObject (depth : Nat) : Json.Reader (String × Option Operand) := fun text => do
  let (parts, rest) ← Json.members (member depth) {} text
  match parts.mnemonic with
  | some mnemonic => return ((mnemonic, parts.operand.getD none), rest)
  | none => .error (.missingField "op")

/-- Reads the items of an instruction, a mnemonic and perhaps an operand. -/
def fromArray (depth : Nat) : Json.Reader (String × Option Operand) := fun text => do
  let (hasMnemonic, rest) ← Json.hasItem true text
  if !hasMnemonic then .error (.wrongLength 0 "struct RawInstruction with 2 elements")
  let (mnemonic, rest) ← Json.string "a string" rest
  let (hasOperand, rest) ← Json.hasItem false rest
  let (operand, rest) ←
    if hasOperand then Json.nullable (Operand.reader depth) rest else .ok (none, rest)
  let (_, rest) ← Json.mark ']' rest
  return ((mnemonic, operand), rest)

/-- Reads an instruction with at most the given number of levels inside it. -/
def reader (depth : Nat) : Json.Reader Instruction := fun text => do
  let ((mnemonic, operand), rest) ←
    Json.structured "struct RawInstruction" (fromArray depth) (fromObject depth) text
  match decode mnemonic operand with
  | .ok instruction => return (instruction, rest)
  | .error error => .error (.refused error.message)

def ofJsonText (text : String) : Except Json.Problem Instruction :=
  Json.whole (reader (Json.maximalDepth - 1)) text.toList

end Instruction

end RegisterMachine
