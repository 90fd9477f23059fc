import RegisterMachine.Json.Any
import RegisterMachine.Proofs.Text.Digits

/-! # JSON numbers read back

A number is written as a sign, digits without a leading zero, and perhaps a fraction and an
exponent. Reading takes the longest run of digits in each place, so that a number is read back
wherever the text after it does not carry it on. An integer is written as digits alone.
-/

namespace RegisterMachine.Json

/-- Whether a number that stands before the text ends there. -/
def EndsNumber (text : List Char) : Prop :=
  ∀ c ∈ text.head?, isDigit c = false ∧ c ≠ '.' ∧ c ≠ 'e' ∧ c ≠ 'E'

theorem endsNumber_cons {c : Char} {rest : List Char}
    (ends : isDigit c = false ∧ c ≠ '.' ∧ c ≠ 'e' ∧ c ≠ 'E') : EndsNumber (c :: rest) := by
  intro first head
  cases head
  exact ends

/-! ## Numbers as they are written -/

structure IsDigits (text : List Char) : Prop where
  some : text ≠ []
  all : ∀ c ∈ text, isDigit c = true

/-- How the sign of an exponent may be written. -/
inductive WritesSign : Bool → List Char → Prop
  | bare : WritesSign false []
  | plus : WritesSign false ['+']
  | minus : WritesSign true ['-']

/-- How an exponent may be written, or that there is none. -/
inductive WritesExponent : Option (Bool × List Char) → List Char → Prop
  | none : WritesExponent none []
  | some {mark : Char} {negative : Bool} {sign found : List Char} (marked : mark = 'e' ∨ mark = 'E')
      (signed : WritesSign negative sign) (digits : IsDigits found) :
      WritesExponent (some (negative, found)) (mark :: (sign ++ found))

def writtenFraction : Option (List Char) → List Char
  | none => []
  | some found => '.' :: found

inductive Literal.Writes : Literal → List Char → Prop
  | intro {negative : Bool} {whole tail : List Char} {fraction : Option (List Char)}
      {exponent : Option (Bool × List Char)} (digits : IsDigits whole)
      (natural : whole.head? = some '0' → whole = ['0'])
      (fractional : ∀ found ∈ fraction, IsDigits found) (scaled : WritesExponent exponent tail) :
      Writes ⟨negative, whole, fraction, exponent⟩
        ((if negative then ['-'] else []) ++ (whole ++ (writtenFraction fraction ++ tail)))

/-! ## Reading numbers -/

private theorem digits_append {found rest : List Char} (digits : IsDigits found)
    (ends : ∀ c ∈ rest.head?, isDigit c = false) :
    Json.digits (found ++ rest) = .ok (found, rest) := by
  have taken : rest.takeWhile isDigit = [] := by
    cases rest with
    | nil => rfl
    | cons c rest => rw [List.takeWhile_cons, ends c rfl]; rfl
  have left : rest.dropWhile isDigit = rest := by
    cases rest with
    | nil => rfl
    | cons c rest => rw [List.dropWhile_cons, ends c rfl]; rfl
  rw [Json.digits, List.takeWhile_append_of_pos digits.all, List.dropWhile_append_of_pos digits.all,
    taken, left, List.append_nil]
  cases found with
  | nil => exact absurd rfl digits.some
  | cons c found => rfl

private theorem wholeDigits_append {whole rest : List Char} (digits : IsDigits whole)
    (natural : whole.head? = some '0' → whole = ['0'])
    (ends : ∀ c ∈ rest.head?, isDigit c = false) :
    wholeDigits (whole ++ rest) = .ok (whole, rest) := by
  rw [wholeDigits, digits_append digits ends]
  simp only [bind, Except.bind]
  split
  · cases natural rfl
  · rfl

private theorem fractionDigits_append {fraction : Option (List Char)} {rest : List Char}
    (fractional : ∀ found ∈ fraction, IsDigits found)
    (ends : ∀ c ∈ rest.head?, isDigit c = false ∧ c ≠ '.') :
    fractionDigits (writtenFraction fraction ++ rest) = .ok (fraction, rest) := by
  cases fraction with
  | none =>
    rw [writtenFraction, List.nil_append, fractionDigits]
    rintro tail rfl
    exact (ends '.' rfl).2 rfl
  | some found =>
    have read := digits_append (fractional found rfl) fun c head => (ends c head).1
    simp only [writtenFraction, List.cons_append, fractionDigits, read, bind, Except.bind]
    rfl

private theorem signedDigits_append {negative : Bool} {sign found rest : List Char}
    (signed : WritesSign negative sign) (digits : IsDigits found)
    (ends : ∀ c ∈ rest.head?, isDigit c = false) :
    signedDigits (sign ++ (found ++ rest)) = .ok ((negative, found), rest) := by
  have read := digits_append digits ends
  cases signed with
  | plus | minus =>
    simp only [signedDigits, List.cons_append, List.nil_append, read, bind, Except.bind]
    rfl
  | bare =>
    obtain ⟨some, all⟩ := digits
    cases found with
    | nil => contradiction
    | cons c found =>
      have digit := all c List.mem_cons_self
      rw [List.nil_append, signedDigits, read]
      · rfl
      · rintro tail same
        cases same
        contradiction
      · rintro tail same
        cases same
        contradiction

private theorem exponentDigits_append {exponent : Option (Bool × List Char)} {tail rest : List Char}
    (scaled : WritesExponent exponent tail) (ends : EndsNumber rest) :
    exponentDigits (tail ++ rest) = .ok (exponent, rest) := by
  cases scaled with
  | none =>
    cases rest with
    | nil => rfl
    | cons c rest =>
      obtain ⟨-, -, lower, upper⟩ := ends c rfl
      simp only [List.nil_append, exponentDigits, lower, upper, or_self, if_false]
  | some marked signed digits =>
    have read := signedDigits_append signed digits fun c head => (ends c head).1
    simp only [List.cons_append, List.append_assoc, exponentDigits, marked, if_true, read, bind,
      Except.bind]
    rfl

/-- An exponent, or what follows a number, begins with neither a digit nor a point. -/
theorem WritesExponent.head {exponent : Option (Bool × List Char)} {tail rest : List Char}
    (scaled : WritesExponent exponent tail) (ends : EndsNumber rest) :
    ∀ c ∈ (tail ++ rest).head?, isDigit c = false ∧ c ≠ '.' := by
  cases scaled with
  | none => exact fun c head => ⟨(ends c head).1, (ends c head).2.1⟩
  | some marked signed digits =>
    rintro c ⟨⟩
    rcases marked with rfl | rfl <;> decide

/-- A number is read as it is written. -/
theorem numberLiteral_append {literal : Literal} {text : List Char} (writes : literal.Writes text)
    {rest : List Char} (ends : EndsNumber rest) :
    numberLiteral (text ++ rest) = .ok (literal, rest) := by
  obtain @⟨negative, whole, tail, fraction, exponent, digits, natural, fractional, scaled⟩ := writes
  have readExponent := exponentDigits_append scaled ends
  have readFraction := fractionDigits_append fractional (scaled.head ends)
  have readWhole : wholeDigits (whole ++ (writtenFraction fraction ++ (tail ++ rest))) =
      .ok (whole, writtenFraction fraction ++ (tail ++ rest)) := by
    refine wholeDigits_append digits natural ?_
    cases fraction with
    | none => exact fun c head => (scaled.head ends c head).1
    | some found =>
      rintro c ⟨⟩
      rfl
  cases negative with
  | true =>
    simp only [if_true, List.cons_append, List.nil_append, List.append_assoc, numberLiteral,
      readWhole, readFraction, readExponent, bind, Except.bind]
    rfl
  | false =>
    simp only [Bool.false_eq_true, if_false, List.nil_append, List.append_assoc]
    rw [numberLiteral, readWhole]
    · simp only [readFraction, readExponent, bind, Except.bind]
      rfl
    · intro later minus
      obtain ⟨some, all⟩ := digits
      cases whole with
      | nil => contradiction
      | cons c whole =>
        cases minus
        exact absurd (all '-' List.mem_cons_self) (by decide)

/-- Whatever number is written is read past. -/
theorem skipNumber_append {literal : Literal} {text : List Char} (writes : literal.Writes text)
    {rest : List Char} (ends : EndsNumber rest) : skipNumber (text ++ rest) = .ok ((), rest) := by
  rw [skipNumber, numberLiteral_append writes ends]

/-- A number begins with a minus sign or a digit. -/
theorem Literal.Writes.head {literal : Literal} {text : List Char} (writes : literal.Writes text) :
    ∃ c rest, text = c :: rest ∧ (c = '-' ∨ isDigit c = true) := by
  obtain @⟨negative, whole, tail, fraction, exponent, digits, -, -, -⟩ := writes
  obtain ⟨some, all⟩ := digits
  cases negative with
  | true => exact ⟨'-', _, rfl, .inl rfl⟩
  | false =>
    cases whole with
    | nil => contradiction
    | cons c whole => exact ⟨c, _, rfl, .inr (all c List.mem_cons_self)⟩

/-! ## Integers -/

private theorem isDigits_toDigits (n : Nat) : IsDigits (Nat.toDigits 10 n) :=
  ⟨Nat.toDigits_ne_nil, fun _ => Nat.isDigit_of_mem_toDigits (by omega) (by omega)⟩

/-- An integer is written as its sign and the digits of its size. -/
theorem writes_toString (value : Int) :
    Literal.Writes ⟨value < 0, Nat.toDigits 10 value.natAbs, none, none⟩
      (toString value).toList := by
  have natural : (Nat.toDigits 10 value.natAbs).head? = some '0' →
      Nat.toDigits 10 value.natAbs = ['0'] := by
    intro zero
    rcases Nat.eq_zero_or_pos value.natAbs with none | positive
    · rw [none, Nat.toDigits_zero]
    · exact absurd zero (Text.head?_toDigits positive)
  have writes : Literal.Writes ⟨value < 0, Nat.toDigits 10 value.natAbs, none, none⟩ _ :=
    .intro (isDigits_toDigits value.natAbs) natural nofun .none
  rw [writtenFraction, List.append_nil, List.append_nil] at writes
  rw [Text.toList_toString]
  split
  · next negative =>
    rw [if_pos (decide_eq_true negative)] at writes
    exact writes
  · next nonnegative =>
    rw [if_neg (mt of_decide_eq_true nonnegative)] at writes
    exact writes

/-- The literal of an integer has its sign and the digits of its size. -/
theorem numberLiteral_toString (value : Int) {rest : List Char} (ends : EndsNumber rest) :
    numberLiteral ((toString value).toList ++ rest) =
      .ok (⟨value < 0, Nat.toDigits 10 value.natAbs, none, none⟩, rest) :=
  numberLiteral_append (writes_toString value) ends

/-- Digits whose number fits in 64 bits are all absorbed. -/
theorem absorb_eq {found : List Char} {read : Nat}
    (small : Nat.ofDigitChars 10 found read < UInt64.size) :
    absorb read found = (Nat.ofDigitChars 10 found read, []) := by
  induction found generalizing read with
  | nil => rfl
  | cons c found ih =>
    rw [Nat.ofDigitChars_cons] at small
    have next := Text.le_ofDigitChars found (10 * read + (c.toNat - '0'.toNat))
    rw [absorb, if_pos (by omega), Nat.mul_comm read, ih small, Nat.ofDigitChars_cons]

/-- An integer of at most 64 bits is read back before a text that does not carry it on. -/
theorem number_toString {value : Int} (low : -0x8000000000000000 ≤ value)
    (high : value < 0x10000000000000000) {rest : List Char} (ends : EndsNumber rest) :
    number ((toString value).toList ++ rest) = .ok (.integer value, rest) := by
  have absorbed : absorb 0 (Nat.toDigits 10 value.natAbs) = (value.natAbs, []) := by
    have named := Nat.ofDigitChars_ten_toDigits (n := value.natAbs)
    rw [absorb_eq (by rw [named]; simp only [UInt64.size]; omega), named]
  have size : (if value < 0 then -Int.ofNat value.natAbs else Int.ofNat value.natAbs) = value := by
    split <;> simp only [Int.ofNat_eq_natCast] <;> omega
  have fits : (!decide (value < 0) ||
      (decide (0 < value.natAbs) && decide (value.natAbs ≤ 0x8000000000000000))) = true := by
    simp only [Bool.or_eq_true, Bool.not_eq_true', decide_eq_false_iff_not, Bool.and_eq_true,
      decide_eq_true_eq]
    omega
  rw [number, numberLiteral_toString value ends]
  simp only [bind, Except.bind, Literal.value, absorbed, fits, Option.isNone_none, List.isEmpty_nil,
    Bool.and_self, if_true, decide_eq_true_eq, size]
  rfl

end RegisterMachine.Json
