import RegisterMachine.Decimal.Notation

/-! # JSON values

Values and their compact form: no spaces, members in the order given, integers in full, and real
numbers as the shortest decimal that reads back. Strings keep every character as it is except the
quote, the backslash and the controls below the space, which are escaped.
-/

namespace RegisterMachine.Json

/-- A JSON value. A real number is any that is not an integer of at most 64 bits. -/
inductive Value where
  | null
  | boolean (value : Bool)
  | integer (value : Int)
  | real (value : Float)
  | text (value : String)
  | array (items : List Value)
  | object (members : List (String × Value))

/-- The lower-case hexadecimal digit of a number below sixteen. -/
def hexDigit (n : Nat) : Char := Nat.digitChar n

def encodeChar (c : Char) : List Char :=
  if c == '"' || c == '\\' then ['\\', c]
  else if c == '\n' then ['\\', 'n']
  else if c == '\r' then ['\\', 'r']
  else if c == '\t' then ['\\', 't']
  else if c.toNat == 8 then ['\\', 'b']
  else if c.toNat == 12 then ['\\', 'f']
  else if c.toNat < 0x20 then
    ['\\', 'u', '0', '0', hexDigit (c.toNat / 16), hexDigit (c.toNat % 16)]
  else [c]

def encodeText (text : String) : List Char :=
  '"' :: text.toList.flatMap encodeChar ++ ['"']

mutual

/-- The compact form of a value. -/
def Value.write : Value → List Char
  | .null => ['n', 'u', 'l', 'l']
  | .boolean true => ['t', 'r', 'u', 'e']
  | .boolean false => ['f', 'a', 'l', 's', 'e']
  | .integer value => (toString value).toList
  | .real value => (Decimal.standard.writeBits value.toBits).toList
  | .text value => encodeText value
  | .array [] => ['[', ']']
  | .array (first :: others) => '[' :: first.write ++ writeItems others
  | .object [] => ['\x7b', '\x7d']
  | .object ((key, first) :: others) =>
    '\x7b' :: encodeText key ++ ':' :: first.write ++ writeMembers others

/-- The items after the first, and the end of the array. -/
def writeItems : List Value → List Char
  | [] => [']']
  | item :: others => ',' :: item.write ++ writeItems others

/-- The members after the first, and the end of the object. -/
def writeMembers : List (String × Value) → List Char
  | [] => ['\x7d']
  | (key, value) :: others => ',' :: encodeText key ++ ':' :: value.write ++ writeMembers others

end

/-- The compact text of a value. -/
def Value.compact (value : Value) : String := String.ofList value.write

end RegisterMachine.Json
