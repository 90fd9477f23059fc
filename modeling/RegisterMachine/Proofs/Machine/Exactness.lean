import Mathlib.Algebra.Order.Field.Basic
import Mathlib.Algebra.Order.Field.Rat
import Mathlib.Order.Bounds.Basic
import RegisterMachine.Proofs.Machine.Checked
import RegisterMachine.Proofs.Machine.Faults

/-! # Exact results

What a sum, a difference, a product or a quotient should be is a question about integers, where
nothing overflows; the quotient is the greatest integer that is not above the fraction. An
instruction that calculates puts just this number into its register, or it raises a fault and leaves
the registers alone: for want of a quotient, or because the number is no word.
-/

namespace RegisterMachine

/-! ## Integers -/

/-- The exact result of an operator on two integers. There is no quotient by zero, and remainders
are not considered. -/
inductive Operator.Yields (left right : Int) : Operator → Int → Prop
  | add : Yields left right .add (left + right)
  | subtract : Yields left right .subtract (left - right)
  | multiply : Yields left right .multiply (left * right)
  | divide {quotient : Int} (nonzero : right ≠ 0)
      (greatest : IsGreatest {below : ℤ | (below : ℚ) ≤ (left : ℚ) / right} quotient) :
      Yields left right .divide quotient

namespace Operator

private theorem le_fdiv_iff (below left : Int) {right : Int} (nonzero : right ≠ 0) :
    below ≤ Int.fdiv left right ↔ (below : ℚ) ≤ (left : ℚ) / right := by
  -- The fraction stays the same if both of its parts change their sign.
  wlog positive : 0 < right generalizing left right with flipped
  · have opposite := flipped (-left) (neg_ne_zero.mpr nonzero) (by omega)
    rw [Int.neg_fdiv_neg] at opposite
    rw [opposite, Int.cast_neg, Int.cast_neg, neg_div_neg_eq]
  · have size : (0 : ℚ) < right := Int.cast_pos.mpr positive
    rw [Int.fdiv_eq_ediv_of_nonneg left (Int.le_of_lt positive), Int.le_ediv_iff_mul_le positive,
      le_div_iff₀ size, ← Int.cast_mul, Int.cast_le]

private theorem isGreatest_fdiv (left : Int) {right : Int} (nonzero : right ≠ 0) :
    IsGreatest {below : ℤ | (below : ℚ) ≤ (left : ℚ) / right} (Int.fdiv left right) :=
  ⟨(le_fdiv_iff _ left nonzero).mp le_rfl, fun below => (le_fdiv_iff below left nonzero).mpr⟩

variable {left right result other : Int} {operator : Operator}

private theorem Yields.unique (yields : operator.Yields left right result)
    (another : operator.Yields left right other) : result = other := by
  cases yields with
  | divide nonzero greatest =>
    cases another with
    | divide _ another => exact greatest.unique another
  | _ =>
    cases another
    rfl

/-- Only a quotient by zero is missing. -/
theorem exists_yields (calculates : operator ≠ .modulo)
    (dividing : operator = .divide → right ≠ 0) : ∃ result, operator.Yields left right result := by
  cases operator with
  | add => exact ⟨_, .add⟩
  | subtract => exact ⟨_, .subtract⟩
  | multiply => exact ⟨_, .multiply⟩
  | divide => exact ⟨_, .divide (dividing rfl) (isGreatest_fdiv left (dividing rfl))⟩
  | modulo => contradiction

end Operator

/-! ## Words -/

namespace Word

/-- The processor's own quotient, which is cut off towards zero, where there is one. -/
def cut? (left right : Word) : Option Word :=
  if right = 0 ∨ left = Int64.minValue ∧ right = -1 then none else some (left / right)

/-- The quotient rounded down, got from the processor's own, from the remainder and from the signs
by a subtraction of words. -/
def floored? (left right : Word) : Option Word :=
  (cut? left right).map fun quotient =>
    if left % right ≠ 0 ∧ ¬(left < 0 ↔ right < 0) then quotient - 1 else quotient

private theorem ofInt?_of_not_within {value : Int} (beyond : ¬(-2 ^ 63 ≤ value ∧ value < 2 ^ 63)) :
    ofInt? value = none := by
  refine if_neg fun within => beyond ?_
  unfold least greatest at within
  omega

private theorem ofInt?_of_within {value : Int} (within : -2 ^ 63 ≤ value ∧ value < 2 ^ 63) :
    ∃ word, ofInt? value = some word := by
  refine ⟨_, if_pos ?_⟩
  unfold least greatest
  omega

private theorem within_toInt (word : Word) : -2 ^ 63 ≤ word.toInt ∧ word.toInt < 2 ^ 63 :=
  ⟨word.le_toInt, word.toInt_lt⟩

theorem cut?_eq_quotient? (left right : Word) : cut? left right = quotient? left right := by
  by_cases zero : right = 0
  · rw [cut?, quotient?, if_pos (.inl zero), if_pos zero]
  rw [quotient?, if_neg zero]
  by_cases extreme : left = Int64.minValue ∧ right = -1
  · obtain ⟨rfl, rfl⟩ := extreme
    rfl
  · rw [cut?, if_neg (by simp [zero, extreme]), eq_comm, ofInt?_eq_some_iff]
    by_cases least : left = Int64.minValue
    · exact Int64.toInt_div_of_ne_right left right fun one => extreme ⟨least, one⟩
    · exact Int64.toInt_div_of_ne_left left right least

/-- Correcting the processor's own quotient neither misses a quotient that is a word nor gives a
wrong one. -/
theorem floored?_eq (left : Word) {right : Word} (nonzero : right ≠ 0) :
    floored? left right = ofInt? (Int.fdiv left.toInt right.toInt) := by
  have cut : cut? left right = ofInt? (Int.tdiv left.toInt right.toInt) :=
    (cut?_eq_quotient? left right).trans (if_neg nonzero)
  rw [fdiv_eq left nonzero, floored?, cut]
  by_cases rounds : left % right ≠ 0 ∧ ¬(left < 0 ↔ right < 0)
  · obtain ⟨low, high⟩ := within_of_rest left nonzero rounds.1
    obtain ⟨quotient, read⟩ :
        ∃ quotient, ofInt? (Int.tdiv left.toInt right.toInt) = some quotient :=
      ⟨_, if_pos ⟨Int.le_of_lt low, high⟩⟩
    have value := ofInt?_eq_some_iff.mp read
    simp only [read, Option.map_some, if_pos rounds]
    rw [eq_comm, ofInt?_eq_some_iff, Int64.toInt_sub, value, Int64.toInt_one]
    unfold least greatest at *
    exact Int.bmod_eq_of_le (by omega) (by omega)
  · simp only [if_neg rounds, Option.map_id_fun', id_eq, Int.sub_zero]

end Word

namespace Operator

variable {left right : Word} {result : Int} {operator : Operator}

private theorem apply_of_yields (yields : operator.Yields left.toInt right.toInt result) :
    operator.apply left right = exact result := by
  cases yields with
  | divide nonzero greatest =>
    rw [apply, if_neg (Word.toInt_ne_zero.mp nonzero),
      greatest.unique (isGreatest_fdiv left.toInt nonzero)]
  | _ => rfl

private theorem Yields.not_by_zero (yields : operator.Yields left.toInt right.toInt result) :
    ¬(operator = .divide ∧ right = 0) := by
  rintro ⟨rfl, rfl⟩
  cases yields with
  | divide nonzero _ => exact nonzero rfl

/-- An operator gives the word that has the exact result as its value, or it fails: there is no
quotient, or the exact result is not the value of any word. -/
theorem apply_cases (calculates : operator ≠ .modulo) (left right : Word) :
    (operator = .divide ∧ right = 0 ∧ operator.apply left right = .error .divisionByZero) ∨
    (∃ word : Word, operator.Yields left.toInt right.toInt word.toInt ∧
      operator.apply left right = .ok word) ∨
    (∃ result, operator.Yields left.toInt right.toInt result ∧
      ¬(-2 ^ 63 ≤ result ∧ result < 2 ^ 63) ∧ operator.apply left right = .error .overflow) := by
  by_cases zero : operator = .divide ∧ right = 0
  · obtain ⟨rfl, rfl⟩ := zero
    exact .inl ⟨rfl, rfl, rfl⟩
  · have dividing : operator = .divide → right.toInt ≠ 0 :=
      fun divides => Word.toInt_ne_zero.mpr fun missing => zero ⟨divides, missing⟩
    obtain ⟨result, yields⟩ : ∃ result, operator.Yields left.toInt right.toInt result :=
      exists_yields calculates dividing
    have applied := apply_of_yields yields
    rw [exact] at applied
    by_cases within : -2 ^ 63 ≤ result ∧ result < 2 ^ 63
    · obtain ⟨word, read⟩ := Word.ofInt?_of_within within
      rw [read] at applied
      rw [← Word.ofInt?_eq_some_iff.mp read] at yields
      exact .inr (.inl ⟨word, yields, applied⟩)
    · rw [Word.ofInt?_of_not_within within] at applied
      exact .inr (.inr ⟨result, yields, within, applied⟩)

/-- Quotients are what correcting the processor's own gives. -/
theorem toOption_apply_divide (left right : Word) :
    (divide.apply left right).toOption = Word.floored? left right := by
  by_cases zero : right = 0
  · rw [apply, if_pos zero, Word.floored?, Word.cut?, if_pos (.inl zero)]
    rfl
  · rw [apply, if_neg zero, Word.floored?_eq left zero, exact]
    cases Word.ofInt? (Int.fdiv left.toInt right.toInt) <;> rfl

end Operator

/-! ## Instructions -/

/-- The instructions that replace a register by a sum, a difference, a product or a quotient of it,
with the operator and its right operand. -/
inductive Instruction.Calculates (register : Register) : Instruction → Operator → Word → Prop
  | arithmetic {operator : Operator} (calculates : operator ≠ .modulo) (value : Word) :
      Calculates register (.arithmetic operator register value) operator value
  | increment : Calculates register (.increment (.register register)) .add 1
  | decrement : Calculates register (.decrement (.register register)) .subtract 1

variable {register : Register} {instruction : Instruction} {operator : Operator} {value : Word}

private theorem Instruction.Calculates.ne_modulo
    (calculates : instruction.Calculates register operator value) : operator ≠ .modulo := by
  cases calculates with
  | arithmetic calculates _ => exact calculates
  | increment => exact Operator.noConfusion
  | decrement => exact Operator.noConfusion

/-- An instruction that computes changes a register and moves on, or it halts where it stands. -/
theorem Core.dispatch_of_compute {handlers : Handlers} {core : Core}
    (applied : core.apply handlers instruction = core.compute operator register value) :
    core.dispatch handlers instruction =
      match operator.apply (core.get register) value with
      | .ok result => ((core.set register result).advance, none)
      | .error fault => (core.halt, some (.arithmetic fault)) := by
  rw [dispatch, applied, compute]
  cases operator.apply (core.get register) value with
  | ok result => rfl
  | error fault =>
    show (settle core.cpu.ip core (.arithmetic fault), _) = _
    rw [settle_of_isFatal rfl]

private theorem Core.dispatch_of_calculates
    (calculates : instruction.Calculates register operator value)
    (handlers : Handlers) (core : Core) :
    core.dispatch handlers instruction =
      match operator.apply (core.get register) value with
      | .ok result => ((core.set register result).advance, none)
      | .error fault => (core.halt, some (.arithmetic fault)) := by
  apply dispatch_of_compute
  cases calculates <;> rfl

private theorem Core.floored?_of_calculates {handlers : Handlers} {core : Core}
    (calculates : instruction.Calculates register .divide value) :
    Word.floored? (core.get register) value =
      if (core.dispatch handlers instruction).2 = none then
        some ((core.dispatch handlers instruction).1.get register)
      else none := by
  rw [← Operator.toOption_apply_divide, dispatch_of_calculates calculates]
  cases Operator.divide.apply (core.get register) value with
  | ok result => exact congrArg some ((Registers.get_set _ _ _ _).trans (if_pos rfl)).symm
  | error fault => rfl

namespace Machine

/-- Arithmetic is exact or it fails.

An instruction that calculates takes effect exactly where the result on integers exists and is the
value of a word. The register then holds that result and the other registers are as before. It
raises a fault for a division by zero there and only there, an overflow exactly where the result on
integers is not the value of a word, and no other fault, and then all registers are as before. For a
quotient the register holds what the processor's own quotient gives once it is corrected. -/
theorem dispatch_exact (machine : Machine) {register : Register} {instruction : Instruction}
    {operator : Operator} {value : Word}
    (calculates : instruction.Calculates register operator value) :
    let left := machine.core.get register
    let fits (result : Int) := -2 ^ 63 ≤ result ∧ result < 2 ^ 63
    let before := machine.core.cpu.registers
    let after := (machine.dispatch instruction).1.core.cpu.registers
    let fault := (machine.dispatch instruction).2
    (fault = none ↔ ∃ result, operator.Yields left.toInt value.toInt result ∧ fits result) ∧
    (fault = none → operator.Yields left.toInt value.toInt (after.get register).toInt ∧
      after = before.set register (after.get register)) ∧
    (fault = some (.arithmetic .divisionByZero) ↔ operator = .divide ∧ value = 0) ∧
    (fault = some (.arithmetic .overflow) ↔
      ∃ result, operator.Yields left.toInt value.toInt result ∧ ¬fits result) ∧
    (fault ≠ none → after = before ∧
      (fault = some (.arithmetic .divisionByZero) ∨ fault = some (.arithmetic .overflow))) ∧
    (operator = .divide →
      Word.floored? left value = if fault = none then some (after.get register) else none) := by
  obtain ⟨core, table, handlers⟩ := machine
  intro left fits before after fault
  have dispatched : core.dispatch handlers instruction = match operator.apply left value with
      | .ok result => ((core.set register result).advance, none)
      | .error fault => (core.halt, some (.arithmetic fault)) :=
    Core.dispatch_of_calculates calculates handlers core
  have floored : operator = .divide →
      Word.floored? left value = if fault = none then some (after.get register) else none := by
    rintro rfl
    exact Core.floored?_of_calculates calculates
  have raised : fault = (core.dispatch handlers instruction).2 := rfl
  have leaves : after = (core.dispatch handlers instruction).1.cpu.registers := rfl
  rcases Operator.apply_cases calculates.ne_modulo left value with
    ⟨divides, zero, applied⟩ | ⟨word, yields, applied⟩ | ⟨result, yields, beyond, applied⟩
  · rw [dispatched, applied] at raised leaves
    have missing (result : Int) : ¬operator.Yields left.toInt value.toInt result :=
      fun yields => yields.not_by_zero ⟨divides, zero⟩
    rw [raised] at floored ⊢
    refine ⟨by simp [missing], nofun, by simp [divides, zero], by simp [missing], ?_, floored⟩
    exact fun _ => ⟨leaves, .inl rfl⟩
  · rw [dispatched, applied] at raised leaves
    have held : after.get register = word := by
      rw [leaves]
      exact (Registers.get_set _ _ _ _).trans (if_pos rfl)
    rw [raised, held] at floored ⊢
    refine ⟨iff_of_true rfl ⟨_, yields, word.within_toInt⟩, fun _ => ⟨yields, leaves⟩,
      iff_of_false nofun yields.not_by_zero, iff_of_false nofun ?_, nofun, floored⟩
    rintro ⟨result, another, beyond⟩
    exact beyond (yields.unique another ▸ word.within_toInt)
  · rw [dispatched, applied] at raised leaves
    rw [raised] at floored ⊢
    refine ⟨iff_of_false nofun ?_, nofun, iff_of_false nofun yields.not_by_zero,
      iff_of_true rfl ⟨result, yields, beyond⟩, fun _ => ⟨leaves, .inr rfl⟩, floored⟩
    rintro ⟨other, another, within⟩
    exact beyond (yields.unique another ▸ within)

/-- A quotient that is rounded down, the one quotient of two words that is no word, a division by
zero and a step beyond the greatest word. -/
theorem dispatch_exact_samples :
    let holding (value : Word) := (Machine.ofConfig {}).mapCore fun core => core.set .bx value
    let least : Word := -0x8000000000000000
    let halved := (holding (-7)).dispatch (.arithmetic .divide .bx 2)
    let turned := (holding least).dispatch (.arithmetic .divide .bx (-1))
    let divided := (holding 5).dispatch (.arithmetic .divide .bx 0)
    let stepped := (holding 0x7fffffffffffffff).dispatch (.increment (.register .bx))
    (halved.2 = none ∧ Operator.Yields (-7) 2 .divide (-4) ∧ halved.1.core.get .bx = -4) ∧
    (turned.2 = some (.arithmetic .overflow) ∧ turned.1.core.get .bx = least ∧
      Word.floored? least (-1) = none) ∧
    (divided.2 = some (.arithmetic .divisionByZero) ∧ divided.1.core.get .bx = 5) ∧
    (stepped.2 = some (.arithmetic .overflow) ∧
      ∃ result, Operator.Yields 0x7fffffffffffffff 1 .add result ∧
        ¬(-2 ^ 63 ≤ result ∧ result < 2 ^ 63)) := by
  intro holding least halved turned divided stepped
  have quotient (value : Word) :
      Instruction.Calculates .bx (.arithmetic .divide .bx value) .divide value :=
    .arithmetic (by decide) value
  have successor : Instruction.Calculates .bx (.increment (.register .bx)) .add 1 := .increment
  have silent : halved.2 = none := by decide
  have overturned : turned.2 = some (.arithmetic .overflow) := by decide
  have overstepped : stepped.2 = some (.arithmetic .overflow) := by decide
  obtain ⟨-, yields, -⟩ := dispatch_exact (holding (-7)) (quotient 2)
  obtain ⟨-, -, -, -, kept, corrected⟩ := dispatch_exact (holding least) (quotient (-1))
  obtain ⟨-, -, byZero, -, same, -⟩ := dispatch_exact (holding 5) (quotient 0)
  obtain ⟨-, -, -, beyond, -⟩ := dispatch_exact (holding 0x7fffffffffffffff) successor
  have failed : divided.2 = some (.arithmetic .divisionByZero) := byZero.mpr ⟨rfl, rfl⟩
  refine ⟨⟨silent, (yields silent).1, by decide⟩, ⟨overturned, ?_, ?_⟩, ⟨failed, ?_⟩, overstepped,
    beyond.mp overstepped⟩
  · exact congrArg (·.get .bx) (kept (by rw [overturned]; nofun)).1
  · exact (corrected rfl).trans (if_neg (by rw [overturned]; nofun))
  · exact congrArg (·.get .bx) (same (by rw [failed]; nofun)).1

end Machine

end RegisterMachine
