import RegisterMachine.Instruction.Basic
import RegisterMachine.Text.Blank

/-! # Instructions as text

An instruction is written as its mnemonic, a space and its operand. The content of a file stands in
double quotes unless it holds no quote, no statement separator and no comment mark and its words
are already separated by single spaces.
-/

namespace RegisterMachine

/-- Content that reads back as itself without quotes. -/
def isPlainContent (content : List Char) : Bool :=
  !(content.any fun c => c == '#' || c == ';' || c == '"') && Text.squeeze content == content

namespace Operand

def written : Operand → String
  | integer value => toString value
  | text value => value
  | cell address register => s!"{address} {register.name}"
  | file name content =>
    if isPlainContent content.toList then s!"{name} {content}" else s!"{name} \"{content}\""

end Operand

namespace Instruction

def written (instruction : Instruction) : String :=
  match instruction.operand with
  | some operand => s!"{instruction.mnemonic} {operand.written}"
  | none => instruction.mnemonic

end Instruction

end RegisterMachine
