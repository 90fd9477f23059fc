import Mathlib.Data.List.Infix
import RegisterMachine.Proofs.Machine.Trace

/-! # What a history prints

The lines of a turn are those that it adds to the output which it finds. As long as each handler
that has a turn leaves standing what was printed before, the output after a history is that before
it, followed by the lines of all turns in order.
-/

namespace RegisterMachine

namespace Turn

variable {handlers : Handlers} {turn : Turn}

/-- The lines that a turn adds to those that it finds. -/
def lines (handlers : Handlers) (turn : Turn) : List String :=
  (turn.core.dispatch handlers turn.instruction).1.output.toList.drop turn.core.output.size

/-- A turn whose handler, if one carries it out, leaves standing what was printed before. -/
def KeepsOutput (handlers : Handlers) (turn : Turn) : Prop :=
  ∀ name operand handler, turn.instruction = .other name operand →
    turn.core.lookup handlers name = some handler →
    turn.core.output.toList <+: (handler turn.core operand).1.output.toList

/-- Where no known handler takes lines away, no turn does. -/
theorem keepsOutput_of_known
    (extend : ∀ handler ∈ handlers, ∀ core operand,
      core.output.toList <+: (handler core operand).1.output.toList) (turn : Turn) :
    turn.KeepsOutput handlers := by
  intro name operand handler _ found
  exact extend handler (Core.mem_of_found found) turn.core operand

private theorem output_stands (keeps : turn.KeepsOutput handlers) :
    turn.core.output.toList <+:
      (turn.core.dispatch handlers turn.instruction).1.output.toList := by
  cases learnt : turn.core.handler? handlers turn.instruction with
  | none =>
    obtain ⟨lines, printed⟩ := turn.core.exists_output_dispatch turn.instruction
    rw [Core.dispatch_of_unlearnt learnt, printed, Array.toList_append]
    exact List.prefix_append _ _
  | some handler =>
    obtain ⟨name, operand, called, found⟩ := Core.handler?_eq_some_iff.mp learnt
    have applied : turn.core.apply handlers turn.instruction = handler turn.core operand := by
      rw [called, Core.apply, found]
    have kept := keeps name operand handler called found
    cases raised : (turn.core.dispatch handlers turn.instruction).2 with
    | none => rwa [Core.dispatch_of_none raised, applied]
    | some fault => rwa [(Core.dispatch_of_fault raised).2, Core.settle_eq, applied]

/-- A turn leaves the output that it finds with its own lines behind. -/
theorem output_eq (keeps : turn.KeepsOutput handlers) :
    (turn.core.dispatch handlers turn.instruction).1.output.toList =
      turn.core.output.toList ++ turn.lines handlers :=
  (List.prefix_iff_eq_append.mp (output_stands keeps)).symm

end Turn

namespace Core

variable {handlers : Handlers} {core : Core}

private theorem output_runFrom {program : Array Instruction} {fuel : Nat}
    (keeps : ∀ turn ∈ core.turnsFrom handlers program fuel, turn.KeepsOutput handlers)
    (steps : Nat) (faults : Array Fault) :
    (core.runFrom handlers program fuel steps faults).1.output.toList =
      core.output.toList ++
        (core.turnsFrom handlers program fuel).flatMap (Turn.lines handlers) := by
  induction fuel, steps, faults, core using runFrom_induction handlers program with
  | halted fuel steps faults core stopped =>
    rw [runFrom_of_halted stopped, turnsFrom_of_halted stopped]
    exact (List.append_nil _).symm
  | ended fuel steps faults core running ended =>
    rw [runFrom_of_ended running ended, turnsFrom_of_ended ended]
    exact (List.append_nil _).symm
  | spent steps faults core instruction running fetched =>
    rw [runFrom_of_spent running fetched]
    exact (List.append_nil _).symm
  | turn fuel steps faults core instruction running fetched ih =>
    rw [turnsFrom_succ running fetched] at keeps ⊢
    rw [List.forall_mem_cons] at keeps
    rw [runFrom_turn running fetched, ih keeps.2, output_reported, Turn.output_eq keeps.1,
      List.append_assoc, ← List.flatMap_cons]
    rfl

private theorem output_visit {process : Process}
    (keeps : ∀ turn ∈ process.turn? core, turn.KeepsOutput handlers) (tick : Nat) :
    (process.visit handlers tick core).1.output.toList =
      core.output.toList ++ (process.turn? core).toList.flatMap (Turn.lines handlers) := by
  cases state : process.state with
  | halted =>
    rw [Process.visit_of_halted state, Process.turn?_of_halted state]
    exact (List.append_nil _).symm
  | ready =>
    cases fetched : process.program[process.ip]? with
    | none =>
      rw [Process.visit_of_ended state fetched, Process.turn?_of_ended fetched]
      exact (List.append_nil _).symm
    | some instruction =>
      rw [Process.turn?_of_fetched state fetched] at keeps ⊢
      have printed := Turn.output_eq (keeps _ rfl)
      rw [Process.visit_of_fetched state fetched, Option.toList_some, List.flatMap_singleton]
      dsimp only
      rw [Process.output_reported, printed]
      rfl

private theorem output_sweep {tick : Nat} {processes : List Process}
    (keeps : ∀ turn ∈ core.sweepTurns handlers tick processes, turn.KeepsOutput handlers) :
    (core.sweep handlers tick processes).1.output.toList =
      core.output.toList ++
        (core.sweepTurns handlers tick processes).flatMap (Turn.lines handlers) := by
  induction processes generalizing core with
  | nil => exact (List.append_nil _).symm
  | cons process others ih =>
    rw [forall_sweepTurns_cons] at keeps
    rw [sweepTurns, List.flatMap_append, ← List.append_assoc, ← output_visit keeps.1 tick]
    exact ih keeps.2

end Core

namespace Machine

variable {machine : Machine}

/-- An action leaves the output that it finds with the lines of its turns behind. -/
theorem output_act {action : Action}
    (keeps : ∀ turn ∈ machine.turnsOf action, turn.KeepsOutput machine.handlers) :
    (machine.act action).core.output.toList =
      machine.core.output.toList ++
        (machine.turnsOf action).flatMap (Turn.lines machine.handlers) := by
  cases action with
  | execute program => exact Core.output_runFrom keeps 0 #[]
  | tick => exact Core.output_sweep keeps
  | dispatch instruction =>
    rw [turnsOf, List.flatMap_singleton]
    exact Turn.output_eq (keeps _ List.mem_cons_self)
  | kill pid =>
    rw [act]
    split
    · next killed success =>
      obtain ⟨table, -, rfl⟩ := map_eq_ok_iff.mp success
      exact (List.append_nil _).symm
    · exact (List.append_nil _).symm
  | spawn program => exact (List.append_nil _).symm
  | reset => exact (List.append_nil _).symm

/-- The output after a history is that before it with the lines of all turns behind. -/
theorem output_run {actions : List Action}
    (keeps : ∀ turn ∈ machine.turns actions, turn.KeepsOutput machine.handlers) :
    (machine.run actions).core.output.toList =
      machine.core.output.toList ++
        (machine.turns actions).flatMap (Turn.lines machine.handlers) := by
  induction actions generalizing machine with
  | nil => exact (List.append_nil _).symm
  | cons action others ih =>
    rw [turns, List.forall_mem_append] at keeps
    have known := machine.handlers_act action
    rw [run_cons, ih (known ▸ keeps.2), output_act keeps.1, known, turns, List.flatMap_append,
      List.append_assoc]

end Machine

end RegisterMachine
