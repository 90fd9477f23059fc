import RegisterMachine.Json.Value
import RegisterMachine.Text.Quoted

/-! # Problems in JSON text

Text is read from left to right and the first problem ends the reading. Either the text ended too
early, or it is not JSON, or it is JSON of another shape than the one wanted.
-/

namespace RegisterMachine.Json

/-- What stands where something else was wanted, as its first token shows it. -/
inductive Found where
  | null
  | boolean (value : Bool)
  | integer (value : Int)
  | real (value : Float)
  | text (value : String)
  | array
  | object

inductive Problem where
  | endOfText
  | malformed
  | wrongKind (found : Found) (wanted : String)
  | wrongInteger (value : Int) (wanted : String)
  | wrongLength (length : Nat) (wanted : String)
  | missingField (name : String)
  | repeatedField (name : String)
  | unknownChoice (name : String) (first second : String)
  | noShape (wanted : String)
  | refused (reason : String)

def Found.description : Found → String
  | null => "null"
  | boolean value => s!"boolean `{value}`"
  | integer value => s!"integer `{value}`"
  | real value => s!"floating point `{Decimal.standard.writeBits value.toBits}`"
  | text value => s!"string {Text.quoted value}"
  | array => "sequence"
  | object => "map"

/-- The problem in words. Text that is not JSON has two fixed messages. -/
def Problem.message : Problem → String
  | endOfText => "<eof>"
  | malformed => "<syntax>"
  | wrongKind found wanted => s!"invalid type: {found.description}, expected {wanted}"
  | wrongInteger value wanted => s!"invalid value: integer `{value}`, expected {wanted}"
  | wrongLength length wanted => s!"invalid length {length}, expected {wanted}"
  | missingField name => s!"missing field `{name}`"
  | repeatedField name => s!"duplicate field `{name}`"
  | unknownChoice name first second =>
    s!"unknown variant `{name}`, expected `{first}` or `{second}`"
  | noShape wanted => s!"data did not match any variant of untagged enum {wanted}"
  | refused reason => reason

end RegisterMachine.Json
