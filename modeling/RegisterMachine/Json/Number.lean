import RegisterMachine.Json.Reader

/-! # JSON numbers

A number without a point and an exponent is an integer where 64 bits hold it, signed for a negative
one. Any other number is a real: the digits that fit in 64 bits make an exact significand, which is
then multiplied or divided by a power of ten. A real beyond the greatest binary64 value is refused.
-/

namespace RegisterMachine.Json

/-- A number as it is read. -/
inductive Number where
  | integer (value : Int)
  | real (value : Float)

/-- A number as it is written, in decimal digits. -/
structure Literal where
  negative : Bool
  whole : List Char
  fraction : Option (List Char)
  exponent : Option (Bool × List Char)

def isDigit (c : Char) : Bool := '0' ≤ c && c ≤ '9'

/-- Reads at least one digit. -/
def digits : Reader (List Char) := fun text =>
  match text.takeWhile isDigit with
  | [] => if text.isEmpty then .error .endOfText else .error .malformed
  | found => .ok (found, text.dropWhile isDigit)

/-- Reads the digits before the point; a zero stands alone. -/
def wholeDigits : Reader (List Char) := fun text => do
  let (found, rest) ← digits text
  match found with
  | '0' :: _ :: _ => .error .malformed
  | _ => return (found, rest)

/-- Reads a point and the digits after it, if there is a point. -/
def fractionDigits : Reader (Option (List Char)) := fun text =>
  match text with
  | '.' :: rest => do
    let (found, rest) ← digits rest
    return (some found, rest)
  | _ => .ok (none, text)

/-- Reads the exponent's sign, if there is one, and its digits. -/
def signedDigits : Reader (Bool × List Char) := fun text => do
  let (negative, text) := match text with
    | '+' :: rest => (false, rest)
    | '-' :: rest => (true, rest)
    | _ => (false, text)
  let (found, rest) ← digits text
  return ((negative, found), rest)

def exponentDigits : Reader (Option (Bool × List Char)) := fun text =>
  match text with
  | c :: rest =>
    if c = 'e' ∨ c = 'E' then do
      let (found, rest) ← signedDigits rest
      return (some found, rest)
    else .ok (none, text)
  | [] => .ok (none, text)

/-- Reads a number as it is written. -/
def numberLiteral : Reader Literal := fun text => do
  let (negative, text) := match text with
    | '-' :: rest => (true, rest)
    | _ => (false, text)
  let (whole, rest) ← wholeDigits text
  let (fraction, rest) ← fractionDigits rest
  let (exponent, rest) ← exponentDigits rest
  return (⟨negative, whole, fraction, exponent⟩, rest)

/-- Appends digits to a significand until one would take it beyond 64 bits, and leaves the digits
from that one on. -/
def absorb (significand : Nat) : List Char → Nat × List Char
  | [] => (significand, [])
  | c :: rest =>
    let next := significand * 10 + (c.toNat - '0'.toNat)
    if next < UInt64.size then absorb next rest else (significand, c :: rest)

def powerOfTen (exponent : Nat) : Float := Float.ofScientific 1 false exponent

/-- Divides by a power of ten, by at most `10 ^ 308` at a time. The first argument bounds the number
of full divisions; three of them take any significand to zero. -/
def divideByPower : Nat → Float → Nat → Float
  | 0, value, _ => value
  | bound + 1, value, exponent =>
    if exponent ≤ 308 then value / powerOfTen exponent
    else divideByPower bound (value / powerOfTen 308) (exponent - 308)

/-- The real `significand * 10 ^ exponent`. -/
def scaled (significand : Nat) (exponent : Int) : Except Problem Float :=
  let value := (UInt64.ofNat significand).toFloat
  if exponent < 0 then .ok (divideByPower 4 value exponent.natAbs)
  else if significand = 0 then .ok 0.0
  else if exponent ≤ 308 then
    let product := value * powerOfTen exponent.toNat
    if product.isInf then .error .malformed else .ok product
  else .error .malformed

namespace Literal

/-- The digits of the exponent as a number with its sign. -/
def power (literal : Literal) : Int :=
  match literal.exponent with
  | none => 0
  | some (negative, found) =>
    let size := found.foldl (fun read c => read * 10 + (c.toNat - '0'.toNat)) 0
    if negative then -Int.ofNat size else Int.ofNat size

/-- The size of the real that the literal names. -/
def realSize (literal : Literal) : Except Problem Float :=
  let (whole, dropped) := absorb 0 literal.whole
  let fraction := literal.fraction.getD []
  let (significand, ignored) := absorb whole fraction
  scaled significand
    (Int.ofNat dropped.length - Int.ofNat (fraction.length - ignored.length) + literal.power)

def value (literal : Literal) : Except Problem Number :=
  let (size, dropped) := absorb 0 literal.whole
  if literal.fraction.isNone && literal.exponent.isNone && dropped.isEmpty &&
      (!literal.negative || (0 < size && size ≤ 0x8000000000000000)) then
    .ok (.integer (if literal.negative then -Int.ofNat size else Int.ofNat size))
  else do
    let size ← literal.realSize
    return .real (if literal.negative then -size else size)

end Literal

def number : Reader Number := fun text => do
  let (literal, rest) ← numberLiteral text
  return (← literal.value, rest)

/-- Reads past a number, of any size. A number cut short by the text's end is malformed. -/
def skipNumber : Reader Unit := fun text =>
  match numberLiteral text with
  | .ok (_, rest) => .ok ((), rest)
  | .error _ => .error .malformed

end RegisterMachine.Json
