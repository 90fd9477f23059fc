import RegisterMachine.Instruction.Written
import RegisterMachine.Machine.Step

/-! # Sample handlers

Mnemonics that a machine can learn: one that computes, one that prints, one that does not move on,
two that fail after they have moved the instruction pointer, one that takes what was printed, and
one that passes on to another mnemonic.
-/

namespace RegisterMachine.Handler

/-- Squares the register that the operand names, wrapping around. -/
def square : Handler := fun core operand =>
  match operand with
  | some (.text name) =>
    match Register.ofName? name with
    | some register =>
      let value := core.get register
      (core.set register (value * value)).next
    | none => core.fail (.invalidOperand "square" "expected a register")
  | _ => core.fail (.invalidOperand "square" "expected a register")

def say : Handler := fun core operand =>
  match operand with
  | some operand => (core.emit s!"say {operand.written}").next
  | none => (core.emit "say nothing").next

/-- Prints a line and does not move on. -/
def stay : Handler := fun core _ => (core.emit "stay").stay

/-- Moves on by seven, spoils a register and overflows. -/
def crash : Handler := fun core _ =>
  ((core.setIp (core.cpu.ip + 7)).set .ax (-1)).fail (.arithmetic .overflow)

/-- Moves on by seven and is unknown. -/
def refuse : Handler := fun core _ =>
  (core.setIp (core.cpu.ip + 7)).fail (.unknownMnemonic "refused")

def drain : Handler := fun core _ => { core with output := #[] }.next

/-- Dispatches another learnt mnemonic, by the handlers that it knows. -/
def call (known : Handlers) (name : String) : Handler := fun core operand =>
  core.dispatch known (.other name operand)

end RegisterMachine.Handler
