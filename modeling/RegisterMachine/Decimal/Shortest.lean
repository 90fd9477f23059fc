/-! # Shortest decimals

A finite binary64 value is `significand * 2 ^ exponent`, and the reals that round to it form an
interval around it whose ends belong to it exactly when the significand is even. Of all decimals in
that interval the one with the fewest digits is chosen, and among those the nearest to the value.
All arithmetic is exact, on natural numbers.
-/

namespace RegisterMachine.Decimal

/-- A decimal `digits * 10 ^ exponent`. -/
structure Scientific where
  digits : Nat
  exponent : Int
  deriving DecidableEq, Repr

/-- The size of a positive finite binary64 value with the interval of the reals that round to it,
all multiplied by one common denominator. -/
structure Interval where
  value : Nat
  below : Nat
  above : Nat
  denominator : Nat
  closed : Bool

def signBit : Nat := 0x8000000000000000

/-- The bit before the point of a significand, which the bits of a value leave out. -/
def leadingBit : Nat := 0x10000000000000

/-- The bits of the value without its sign. -/
def magnitude (bits : UInt64) : Nat := bits.toNat % signBit

def isNegative (bits : UInt64) : Bool := decide (signBit ≤ bits.toNat)

/-- The significand and the exponent of two of a finite value. -/
def components (bits : UInt64) : Nat × Int :=
  let fraction := magnitude bits % leadingBit
  let field := magnitude bits / leadingBit
  if field = 0 then (fraction, -1074) else (fraction + leadingBit, Int.ofNat field - 1075)

/-- The interval of a positive value. Below a power of two the neighbour is half as far away. -/
def interval (bits : UInt64) : Interval :=
  let (significand, exponent) := components bits
  let isPower := significand == leadingBit && magnitude bits / leadingBit > 1
  let numerator := Nat.pow 2 exponent.toNat
  { value := 4 * significand * numerator
    below := (4 * significand - if isPower then 1 else 2) * numerator
    above := (4 * significand + 2) * numerator
    denominator := 4 * Nat.pow 2 (-exponent).toNat
    closed := significand % 2 == 0 }

def Interval.holds (interval : Interval) (decimal : Scientific) : Bool :=
  let point := decimal.digits * Nat.pow 10 decimal.exponent.toNat * interval.denominator
  let unit := Nat.pow 10 (-decimal.exponent).toNat
  if interval.closed then interval.below * unit ≤ point && point ≤ interval.above * unit
  else interval.below * unit < point && point < interval.above * unit

/-- The distance of a decimal from the value, in units that depend on the exponent alone. -/
def Interval.distance (interval : Interval) (decimal : Scientific) : Nat :=
  let point := decimal.digits * Nat.pow 10 decimal.exponent.toNat * interval.denominator
  let value := interval.value * Nat.pow 10 (-decimal.exponent).toNat
  (point - value) + (value - point)

/-- The greatest multiple of a power of ten that is not above the value. -/
def Interval.floor (interval : Interval) (exponent : Int) : Nat :=
  interval.value * Nat.pow 10 (-exponent).toNat /
    (interval.denominator * Nat.pow 10 exponent.toNat)

/-- The decimal on one grid of tens that lies in the interval, nearest to the value; of two equally
near ones the even one. -/
def Interval.onGrid? (interval : Interval) (exponent : Int) : Option Scientific :=
  let low : Scientific := ⟨interval.floor exponent, exponent⟩
  let high : Scientific := ⟨interval.floor exponent + 1, exponent⟩
  match interval.holds low && 0 < low.digits, interval.holds high with
  | true, true =>
    let below := interval.distance low
    let above := interval.distance high
    if below < above || (below == above && low.digits % 2 == 0) then some low else some high
  | true, false => some low
  | false, true => some high
  | false, false => none

/-- The first decimal found on ever finer grids. -/
def Interval.firstFrom (interval : Interval) (exponent : Int) : Nat → Scientific
  | 0 => ⟨interval.floor exponent, exponent⟩
  | grids + 1 =>
    match interval.onGrid? exponent with
    | some decimal => decimal
    | none => interval.firstFrom (exponent - 1) grids

/-- Moves trailing zeros of the digits into the exponent. -/
def Scientific.normalise (decimal : Scientific) : Nat → Scientific
  | 0 => decimal
  | steps + 1 =>
    if decimal.digits ≠ 0 ∧ decimal.digits % 10 = 0 then
      Scientific.normalise ⟨decimal.digits / 10, decimal.exponent + 1⟩ steps
    else decimal

/-- The shortest decimal that reads back as the size of a finite value. No value reaches the grid
of `10 ^ 309`, and every value has a decimal of seventeen digits. -/
def shortest (bits : UInt64) : Scientific :=
  if magnitude bits = 0 then ⟨0, 0⟩
  else ((interval bits).firstFrom 309 (309 + 343)).normalise 20

end RegisterMachine.Decimal
