import RegisterMachine.Text.Numeral

/-! # Decimal digits

An integer is written as the decimal digits of its size, after a minus sign where it is negative.
The digits name that size again, and only zero begins with a zero.
-/

namespace RegisterMachine.Text

theorem toList_toString (value : Int) :
    (toString value).toList =
      if value < 0 then '-' :: Nat.toDigits 10 value.natAbs else Nat.toDigits 10 value.natAbs := by
  cases value with
  | ofNat n =>
    rw [if_neg (show ¬ Int.ofNat n < 0 by simp)]
    exact Nat.toList_repr
  | negSucc n =>
    rw [if_pos (Int.negSucc_lt_zero n), Int.natAbs_negSucc, ← Nat.toList_repr]
    exact String.toList_append

theorem isDigit_of_toDigits_eq_cons {n : Nat} {c : Char} {rest : List Char}
    (written : Nat.toDigits 10 n = c :: rest) : c.isDigit = true :=
  Nat.isDigit_of_mem_toDigits (by omega) (by omega) (written ▸ List.mem_cons_self)

/-- A positive number does not begin with a zero. -/
theorem head?_toDigits {n : Nat} (positive : 0 < n) : (Nat.toDigits 10 n).head? ≠ some '0' := by
  induction n using Nat.strongRecOn with
  | ind n ih =>
    rcases Nat.lt_or_ge n 10 with small | large
    · rw [Nat.toDigits_of_lt_base small]
      simp only [List.head?_cons, ne_eq, Option.some.injEq, Nat.digitChar_eq_zero]
      omega
    · rw [Nat.toDigits_of_base_le (by omega) large,
        List.head?_append, Option.or_of_isSome (by simp [Nat.toDigits_ne_nil])]
      exact ih (n / 10) (by omega) (by omega)

theorem le_ofDigitChars (cs : List Char) (read : Nat) : read ≤ Nat.ofDigitChars 10 cs read := by
  rw [Nat.ofDigitChars_eq_ofDigitChars_zero]
  have power := Nat.le_mul_of_pos_left read (Nat.pow_pos (n := cs.length) (show 0 < 10 by omega))
  omega

end RegisterMachine.Text
