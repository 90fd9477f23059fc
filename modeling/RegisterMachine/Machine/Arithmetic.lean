import RegisterMachine.Machine.Core

/-! # Arithmetic

Sums, differences, products and quotients are exact or they are faults; a quotient is rounded down.
A remainder has the sign of the dividend, and is taken only where the quotient cut off towards zero
is itself a word.
-/

namespace RegisterMachine

/-- An exact result, which must be a word. -/
def exact (value : Int) : Except ArithmeticFault Word :=
  match Word.ofInt? value with
  | some word => .ok word
  | none => .error .overflow

/-- The result of an operator on two words. -/
def Operator.apply (left right : Word) : Operator → Except ArithmeticFault Word
  | add => exact (left.toInt + right.toInt)
  | subtract => exact (left.toInt - right.toInt)
  | multiply => exact (left.toInt * right.toInt)
  | divide =>
    if right = 0 then .error .divisionByZero else exact (Int.fdiv left.toInt right.toInt)
  | modulo =>
    if right = 0 then .error .moduloByZero
    else do
      let _ ← exact (Int.tdiv left.toInt right.toInt)
      exact (Int.tmod left.toInt right.toInt)

def Flag.ofWords (left right : Word) : Flag :=
  if left = right then .equal else if right < left then .greater else .less

def Condition.holds (flag : Flag) : Condition → Bool
  | equal => flag == .equal
  | notEqual => flag != .equal
  | greater => flag == .greater
  | less => flag == .less

end RegisterMachine
