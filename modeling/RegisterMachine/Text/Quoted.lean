import RegisterMachine.Text.Printable

/-! # Quoted text

Messages show foreign text between double quotes. A quote or a backslash inside gets a backslash;
line feed, carriage return, tab and the null character have short escapes; any other character that
is not printable is written as its code point in hexadecimal digits between braces.
-/

namespace RegisterMachine.Text

/-- The lower-case hexadecimal digits of a number, without leading zeros. -/
def hexadecimal (n : Nat) : List Char := Nat.toDigits 16 n

def encodeQuotedChar (c : Char) : List Char :=
  if c == '"' || c == '\\' then ['\\', c]
  else if c == '\n' then ['\\', 'n']
  else if c == '\r' then ['\\', 'r']
  else if c == '\t' then ['\\', 't']
  else if c.toNat == 0 then ['\\', '0']
  else if isPrintable c then [c]
  else ['\\', 'u', '\x7b'] ++ hexadecimal c.toNat ++ ['\x7d']

/-- A text between double quotes, as messages quote it. -/
def quoted (text : String) : String :=
  String.ofList ('"' :: text.toList.flatMap encodeQuotedChar ++ ['"'])

end RegisterMachine.Text
