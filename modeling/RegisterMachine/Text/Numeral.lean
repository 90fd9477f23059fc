import RegisterMachine.Word

/-! # Numerals

A numeral is an optional sign and at least one decimal digit, with nothing else around them.
Leading zeros are allowed. A number outside the range asked for is refused, and so is a minus sign
where only natural numbers are wanted.
-/

namespace RegisterMachine.Text

/-- The value of an ASCII decimal digit. -/
def digit? (c : Char) : Option Nat :=
  if '0' ≤ c ∧ c ≤ '9' then some (c.toNat - '0'.toNat) else none

/-- Reads digits, most significant first, after those already read. -/
def digitsFrom? (read : Nat) : List Char → Option Nat
  | [] => some read
  | c :: rest =>
    match digit? c with
    | some d => digitsFrom? (read * 10 + d) rest
    | none => none

/-- The number that a nonempty run of digits names. -/
def digits? : List Char → Option Nat
  | [] => none
  | text => digitsFrom? 0 text

/-- A natural number, which may have a plus sign. -/
def natural? : List Char → Option Nat
  | '+' :: rest => digits? rest
  | text => digits? text

def integer? : List Char → Option Int
  | '+' :: rest => (digits? rest).map Int.ofNat
  | '-' :: rest => (digits? rest).map fun n => -Int.ofNat n
  | text => (digits? text).map Int.ofNat

/-- An integer that is a word. -/
def word? (text : List Char) : Option Word :=
  (integer? text).bind Word.ofInt?

def naturalBelow? (bound : Nat) (text : List Char) : Option Nat :=
  (natural? text).bind fun n => if n < bound then some n else none

/-- A natural number of at most 64 bits. -/
def natural64? (text : List Char) : Option UInt64 :=
  (naturalBelow? UInt64.size text).map UInt64.ofNat

end RegisterMachine.Text
