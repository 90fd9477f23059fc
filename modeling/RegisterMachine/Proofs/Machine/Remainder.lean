import RegisterMachine.Proofs.Machine.Exactness

/-! # Remainders

Every division by another number than zero leaves exactly one remainder that is smaller than the
divisor and has no other sign than the dividend. It is never further from zero than the dividend, so
that it is a word where the dividend is one. The machine also wants the quotient to be a word, and
there is one pair of words for which it is not: nothing is left of the least word divided by minus
one, but the machine halts there.
-/

namespace RegisterMachine

/-- What a division leaves of the dividend. -/
structure IsRemainder (dividend divisor remainder : Int) : Prop where
  smaller : remainder.natAbs < divisor.natAbs
  divides : divisor ∣ dividend - remainder
  sign : remainder = 0 ∨ remainder.sign = dividend.sign

section Integers

variable {dividend divisor remainder other : Int}

private theorem isRemainder_tmod (dividend : Int) (nonzero : divisor ≠ 0) :
    IsRemainder dividend divisor (Int.tmod dividend divisor) := by
  refine ⟨?_, Int.dvd_self_sub_tmod, ?_⟩
  · rw [Int.natAbs_tmod]
    exact Nat.mod_lt _ (Int.natAbs_pos.mpr nonzero)
  · rw [← Int.sign_eq_zero_iff_zero, Int.sign_tmod]
    split
    · exact .inl rfl
    · exact .inr rfl

/-- Two remainders of one division that are not zero lie on the same side of it. -/
theorem IsRemainder.aligned (is : IsRemainder dividend divisor remainder)
    (another : IsRemainder dividend divisor other) :
    remainder = 0 ∨ other = 0 ∨ 0 < remainder ∧ 0 < other ∨ remainder < 0 ∧ other < 0 := by
  rcases is.sign with zero | sign
  · exact .inl zero
  rcases another.sign with zero | otherSign
  · exact .inr (.inl zero)
  have same : remainder.sign = other.sign := sign.trans otherSign.symm
  rcases Int.lt_trichotomy remainder 0 with negative | zero | positive
  · rw [Int.sign_eq_neg_one_of_neg negative] at same
    exact .inr (.inr (.inr ⟨negative, Int.sign_eq_neg_one_iff_neg.mp same.symm⟩))
  · exact .inl zero
  · rw [Int.sign_eq_one_of_pos positive] at same
    exact .inr (.inr (.inl ⟨positive, Int.sign_eq_one_iff_pos.mp same.symm⟩))

private theorem IsRemainder.unique (is : IsRemainder dividend divisor remainder)
    (another : IsRemainder dividend divisor other) : remainder = other := by
  have multiple : divisor ∣ remainder - other := by
    have both := dvd_sub another.divides is.divides
    rwa [sub_sub_sub_cancel_left] at both
  have near : (remainder - other).natAbs < divisor.natAbs := by
    have aligned := is.aligned another
    have smaller := is.smaller
    have otherSmaller := another.smaller
    omega
  exact Int.sub_eq_zero.mp (Int.eq_zero_of_dvd_of_natAbs_lt_natAbs multiple near)

end Integers

/-! ## Words -/

/-- The remainder of two words is the value of a word. -/
theorem isRemainder_iff (dividend : Word) {divisor : Word} (nonzero : divisor ≠ 0)
    {remainder : Int} :
    IsRemainder dividend.toInt divisor.toInt remainder ↔
      remainder = (dividend % divisor).toInt := by
  have is : IsRemainder dividend.toInt divisor.toInt (dividend % divisor).toInt := by
    rw [Int64.toInt_mod]
    exact isRemainder_tmod _ (Word.toInt_ne_zero.mpr nonzero)
  constructor
  · exact fun another => another.unique is
  · rintro rfl
    exact is

/-- Only the quotient that is no word is in the way of a remainder. -/
theorem Operator.apply_modulo (left : Word) {right : Word} (nonzero : right ≠ 0) :
    modulo.apply left right =
      if left = Int64.minValue ∧ right = -1 then .error .overflow else .ok (left % right) := by
  have quotient : Word.ofInt? (Int.tdiv left.toInt right.toInt) = Word.cut? left right :=
    ((Word.cut?_eq_quotient? left right).trans (if_neg nonzero)).symm
  have remainder : Word.ofInt? (Int.tmod left.toInt right.toInt) = some (left % right) :=
    Word.ofInt?_eq_some_iff.mpr (Int64.toInt_mod left right)
  rw [apply, if_neg nonzero, exact, exact, quotient, remainder, Word.cut?]
  by_cases extreme : left = Int64.minValue ∧ right = -1
  · rw [if_pos (.inr extreme), if_pos extreme]
    rfl
  · rw [if_neg (not_or.mpr ⟨nonzero, extreme⟩), if_neg extreme]
    rfl

/-! ## The instruction -/

namespace Machine

/-- What is left of a register after a division by a word that is not zero is always one number, and
the value of a word. The instruction that asks for it puts it into the register, changes nothing
else of the processor and moves on, unless the least word is divided by minus one. It then overflows
and halts, with all registers as they were. -/
theorem dispatch_remainder (machine : Machine) (register : Register) {divisor : Word}
    (nonzero : divisor ≠ 0) :
    let dividend := machine.core.get register
    let before := machine.core.cpu
    let dispatched := machine.dispatch (.arithmetic .modulo register divisor)
    let after := dispatched.1.core.cpu
    (∃ word : Word, ∀ remainder,
      IsRemainder dividend.toInt divisor.toInt remainder ↔ remainder = word.toInt) ∧
    (dispatched.2 = none ↔ ¬(dividend = Int64.minValue ∧ divisor = -1)) ∧
    (dispatched.2 = none →
      let left := after.registers.get register
      IsRemainder dividend.toInt divisor.toInt left.toInt ∧
      after = { before with
        registers := before.registers.set register left, ip := before.ip + 1 }) ∧
    (dispatched.2 ≠ none → dispatched.2 = some (.arithmetic .overflow) ∧
      after = { before with halted := true }) := by
  obtain ⟨core, table, handlers⟩ := machine
  intro dividend before dispatched after
  have computed : core.dispatch handlers (.arithmetic .modulo register divisor) = _ :=
    Core.dispatch_of_compute rfl
  rw [Operator.apply_modulo _ nonzero] at computed
  have raised : dispatched.2 = (core.dispatch handlers (.arithmetic .modulo register divisor)).2 :=
    rfl
  have leaves : after = (core.dispatch handlers (.arithmetic .modulo register divisor)).1.cpu := rfl
  refine ⟨⟨dividend % divisor, fun _ => isRemainder_iff dividend nonzero⟩, ?_⟩
  by_cases extreme : dividend = Int64.minValue ∧ divisor = -1
  · rw [if_pos extreme] at computed
    rw [computed] at raised leaves
    rw [raised]
    exact ⟨iff_of_false nofun (not_not_intro extreme), nofun, fun _ => ⟨rfl, leaves⟩⟩
  · rw [if_neg extreme] at computed
    rw [computed] at raised leaves
    have held : after.registers.get register = dividend % divisor := by
      rw [leaves]
      exact (Registers.get_set _ _ _ _).trans (if_pos rfl)
    rw [raised, held]
    refine ⟨iff_of_true rfl extreme, fun _ => ⟨(isRemainder_iff dividend nonzero).mpr rfl, leaves⟩,
      fun failed => absurd rfl failed⟩

/-- A dividend below zero, a divisor below zero, and the pair without a quotient. -/
theorem dispatch_remainder_samples :
    let holding (value : Word) := (Machine.ofConfig {}).mapCore fun core => core.set .cx value
    let below := (holding (-7)).dispatch (.arithmetic .modulo .cx 3)
    let above := (holding 7).dispatch (.arithmetic .modulo .cx (-3))
    let extreme := (holding Int64.minValue).dispatch (.arithmetic .modulo .cx (-1))
    (below.2 = none ∧ below.1.core.get .cx = -1 ∧ IsRemainder (-7) 3 (-1)) ∧
    (above.2 = none ∧ above.1.core.get .cx = 1 ∧ IsRemainder 7 (-3) 1) ∧
    (extreme.2 = some (.arithmetic .overflow) ∧ extreme.1.core.get .cx = Int64.minValue) := by
  intro holding below above extreme
  obtain ⟨-, -, negative, -⟩ :=
    dispatch_remainder (holding (-7)) .cx (show (3 : Word) ≠ 0 by decide)
  obtain ⟨-, -, positive, -⟩ := dispatch_remainder (holding 7) .cx (show (-3 : Word) ≠ 0 by decide)
  obtain ⟨-, -, -, fails⟩ :=
    dispatch_remainder (holding Int64.minValue) .cx (show (-1 : Word) ≠ 0 by decide)
  have first : below.2 = none := by decide
  have second : above.2 = none := by decide
  obtain ⟨overflow, -⟩ := fails (by decide)
  exact ⟨⟨first, by decide, (negative first).1⟩, ⟨second, by decide, (positive second).1⟩, overflow,
    by decide⟩

/-- The least word divided by minus one leaves nothing, which is a word, but the machine overflows
and halts instead of putting it into the register. -/
theorem least_modulo_minus_one_overflows :
    let machine := ((Machine.ofConfig {}).dispatch (.load (.register .ax) Int64.minValue)).1
    let dispatched := machine.dispatch (.arithmetic .modulo .ax (-1))
    machine.core.get .ax = Int64.minValue ∧
    IsRemainder (machine.core.get .ax).toInt (-1 : Word).toInt (0 : Word).toInt ∧
    dispatched.2 = some (.arithmetic .overflow) ∧ dispatched.1.core.cpu.halted = true ∧
    dispatched.1.core.get .ax = Int64.minValue := by
  refine ⟨by decide, ⟨by decide, by decide, .inl rfl⟩, by decide⟩

end Machine

end RegisterMachine
