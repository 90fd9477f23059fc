/-! # Machine words

Registers, memory cells and operands hold signed 64-bit numbers. An integer is a word exactly when
it lies between the least and the greatest of them; nothing wraps around on the way in.
-/

namespace RegisterMachine

/-- A signed 64-bit number. -/
abbrev Word := Int64

namespace Word

def least : Int := -0x8000000000000000

def greatest : Int := 0x7fffffffffffffff

/-- The word with the given value, if the value is in range. -/
def ofInt? (value : Int) : Option Word :=
  if least ≤ value ∧ value ≤ greatest then some (Int64.ofInt value) else none

/-- The word as a position in a sequence; negative words have none. -/
def index? (word : Word) : Option Nat :=
  if 0 ≤ word.toInt then some word.toInt.toNat else none

/-- An integer is read as the word that has its value. -/
theorem ofInt?_eq_some_iff {value : Int} {word : Word} :
    ofInt? value = some word ↔ word.toInt = value := by
  unfold ofInt? least greatest
  split
  · next bounds =>
    have inverse : (Int64.ofInt value).toInt = value :=
      Int64.toInt_ofInt_of_le (by simpa using bounds.1) (by omega)
    constructor
    · intro read
      rw [← Option.some.inj read, inverse]
    · intro same
      exact congrArg some (Int64.toInt_inj.mp (inverse.trans same.symm))
  · next bounds =>
    constructor
    · intro read
      contradiction
    · intro same
      have low := word.le_toInt
      have high := word.toInt_lt
      omega

end Word

end RegisterMachine
