import RegisterMachine.Proofs.Text.Digits
import RegisterMachine.Proofs.Text.Words

/-! # Numerals of words

The numeral that a machine word is written with is a word of its own in a text and names the
machine word again.
-/

namespace RegisterMachine.Text

private theorem digit?_of_isDigit {c : Char} (digit : c.isDigit = true) :
    digit? c = some (c.toNat - '0'.toNat) := by
  have bounds : '0' ≤ c ∧ c ≤ '9' := by
    rw [Char.isDigit, Bool.and_eq_true, decide_eq_true_eq, decide_eq_true_eq] at digit
    exact digit
  rw [digit?, if_pos bounds]

private theorem digitsFrom?_eq {text : List Char} (all : ∀ c ∈ text, c.isDigit = true)
    (read : Nat) :
    digitsFrom? read text = some (Nat.ofDigitChars 10 text read) := by
  induction text generalizing read with
  | nil => rfl
  | cons c rest ih =>
    rw [List.forall_mem_cons] at all
    rw [digitsFrom?, digit?_of_isDigit all.1, Nat.ofDigitChars_cons, Nat.mul_comm]
    exact ih all.2 _

private theorem digits?_toDigits (n : Nat) : digits? (Nat.toDigits 10 n) = some n := by
  have all : ∀ c ∈ Nat.toDigits 10 n, c.isDigit = true := fun c =>
    Nat.isDigit_of_mem_toDigits (by omega) (by omega)
  rw [digits?, digitsFrom?_eq all, Nat.ofDigitChars_ten_toDigits]
  exact Nat.toDigits_ne_nil

private theorem integer?_toString (value : Int) :
    integer? (toString value).toList = some value := by
  rw [toList_toString]
  split
  · next negative =>
    rw [integer?, digits?_toDigits, Option.map_some]
    exact congrArg some (by simp only [Int.ofNat_eq_natCast]; omega)
  · next natural =>
    have unsigned {c : Char} (sign : c.isDigit = false) (rest : List Char)
        (written : Nat.toDigits 10 value.natAbs = c :: rest) : False := by
      rw [isDigit_of_toDigits_eq_cons written] at sign
      contradiction
    rw [integer?, digits?_toDigits, Option.map_some]
    · exact congrArg some (by simp only [Int.ofNat_eq_natCast]; omega)
    · exact unsigned (by decide)
    · exact unsigned (by decide)

/-- An integer has a numeral of its own. -/
theorem eq_of_toString_eq {left right : Int} (same : toString left = toString right) :
    left = right := by
  have read := integer?_toString left
  rw [same, integer?_toString] at read
  exact (Option.some.inj read).symm

/-- The numeral of a machine word names it. -/
theorem word?_toString (value : Word) : word? (toString value).toList = some value := by
  have read := integer?_toString value.toInt
  rw [word?, show toString value = toString value.toInt from rfl, read]
  exact Word.ofInt?_eq_some_iff.mpr rfl

theorem toNat_of_isAlphanum {c : Char} (plain : c.isAlphanum = true) :
    (65 ≤ c.toNat ∧ c.toNat ≤ 90 ∨ 97 ≤ c.toNat ∧ c.toNat ≤ 122) ∨
      48 ≤ c.toNat ∧ c.toNat ≤ 57 := by
  rcases Bool.or_eq_true_iff.mp plain with letter | digit
  · left
    rcases Bool.or_eq_true_iff.mp letter with upper | lower
    · exact .inl (of_decide_eq_true upper)
    · exact .inr ((Bool.and_eq_true_iff.mp lower).imp of_decide_eq_true of_decide_eq_true)
  · right
    exact (Bool.and_eq_true_iff.mp digit).imp of_decide_eq_true of_decide_eq_true

/-- Letters and digits are not blank. -/
theorem isBlank_of_isAlphanum {c : Char} (plain : c.isAlphanum = true) : isBlank c = false := by
  have range := toNat_of_isAlphanum plain
  simp only [isBlank, Bool.or_eq_false_iff, Bool.and_eq_false_iff, decide_eq_false_iff_not,
    beq_eq_false_iff_ne]
  omega

/-- A numeral has digits and perhaps a minus sign. -/
theorem numeral_of_mem_toString {value : Word} {c : Char} (member : c ∈ (toString value).toList) :
    c = '-' ∨ c.isAlphanum = true := by
  have digit (member : c ∈ Nat.toDigits 10 value.toInt.natAbs) : c.isDigit = true :=
    Nat.isDigit_of_mem_toDigits (by omega) (by omega) member
  rw [show toString value = toString value.toInt from rfl, toList_toString] at member
  split at member
  · rcases List.mem_cons.mp member with minus | later
    · exact .inl minus
    · exact .inr (Bool.or_eq_true_iff.mpr (.inr (digit later)))
  · exact .inr (Bool.or_eq_true_iff.mpr (.inr (digit member)))

theorem isWord_toString (value : Word) : IsWord (toString value).toList := by
  constructor
  · intro empty
    have read := word?_toString value
    rw [empty] at read
    contradiction
  · intro c member
    rcases numeral_of_mem_toString member with rfl | plain
    · decide
    · exact isBlank_of_isAlphanum plain

/-! ## Natural numbers -/

theorem natural?_toDigits (n : Nat) : natural? (Nat.toDigits 10 n) = some n := by
  rw [natural?, digits?_toDigits]
  intro rest signed
  have digit := isDigit_of_toDigits_eq_cons signed
  contradiction

theorem isWord_toDigits (n : Nat) : IsWord (Nat.toDigits 10 n) := by
  refine ⟨Nat.toDigits_ne_nil, fun c member => ?_⟩
  have digit : c.isDigit = true := Nat.isDigit_of_mem_toDigits (by omega) (by omega) member
  exact isBlank_of_isAlphanum (Bool.or_eq_true_iff.mpr (.inr digit))

end RegisterMachine.Text
