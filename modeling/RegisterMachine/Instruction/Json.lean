import RegisterMachine.Instruction.Decode
import RegisterMachine.Json.Value

/-! # Instructions in JSON

An instruction is an object with its mnemonic and, where it has one, its operand. An operand is a
number, a string, an object with an address and a register, or one with a name and a content.
-/

namespace RegisterMachine

def Operand.toJson : Operand → Json.Value
  | integer value => .integer value.toInt
  | text value => .text value
  | cell address register =>
    .object [("addr", .integer address.toInt), ("reg", .text register.name)]
  | file name content => .object [("name", .text name), ("content", .text content)]

def Instruction.toJson (instruction : Instruction) : Json.Value :=
  match instruction.operand with
  | some operand =>
    .object [("op", .text instruction.mnemonic), ("arg", operand.toJson)]
  | none => .object [("op", .text instruction.mnemonic)]

end RegisterMachine
