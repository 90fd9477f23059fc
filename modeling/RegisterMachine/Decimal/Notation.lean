import RegisterMachine.Decimal.Shortest

/-! # Decimal notation

A shortest decimal is written with a point, or with one digit before the point and an exponent of
ten when it is very large or very small.
-/

namespace RegisterMachine.Decimal

/-- How a decimal is laid out, by the power of ten of its first digit. -/
structure Layout where
  /-- The least power written with a point alone. -/
  leastPositional : Int
  /-- The greatest power written with a point alone. -/
  greatestPositional : Int

/-- Powers from -5 to 15 take a point alone. -/
def standard : Layout := ⟨-5, 15⟩

def zeros (count : Nat) : List Char := List.replicate count '0'

/-- An exponent with its sign, also when it is positive. -/
def exponent (power : Int) : List Char :=
  ['e', if power < 0 then '-' else '+'] ++ Nat.toDigits 10 power.natAbs

def Layout.write (layout : Layout) (decimal : Scientific) : List Char :=
  let digits := Nat.toDigits 10 decimal.digits
  let power : Int := decimal.exponent + Int.ofNat digits.length - 1
  if decimal.digits = 0 then ['0', '.', '0']
  else if layout.leastPositional ≤ power ∧ power ≤ layout.greatestPositional then
    if power < 0 then ['0', '.'] ++ zeros ((-power).toNat - 1) ++ digits
    else if 0 ≤ decimal.exponent then digits ++ zeros decimal.exponent.toNat ++ ['.', '0']
    else digits.take (power.toNat + 1) ++ ['.'] ++ digits.drop (power.toNat + 1)
  else
    match digits with
    | [only] => only :: exponent power
    | first :: others => first :: '.' :: others ++ exponent power
    | [] => []

/-- A finite binary64 value, by its bits. -/
def Layout.writeBits (layout : Layout) (bits : UInt64) : String :=
  let text := layout.write (shortest bits)
  String.ofList (if isNegative bits then '-' :: text else text)

end RegisterMachine.Decimal
