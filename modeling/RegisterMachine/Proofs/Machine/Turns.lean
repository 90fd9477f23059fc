import RegisterMachine.Proofs.Machine.Course
import RegisterMachine.Proofs.Machine.Fuel

/-! # The turns of a run

Every run of a program has taken turns: they lead from its start to the core that it leaves, and its
report counts them and has their faults. A course is told by where it starts and how long it is, so
there is only one way to take so many turns, and what is said of the turns of a run is said of all
that the run has dispatched.
-/

namespace RegisterMachine

namespace Core.Course

variable {handlers : Handlers} {program : List Instruction} {core last last' : Core}
  {turns turns' : List Turn}

/-- Two courses of one length from one core are the same. -/
theorem unique (course : core.Course handlers program turns last)
    (other : core.Course handlers program turns' last') (length : turns.length = turns'.length) :
    turns = turns' ∧ last = last' := by
  induction course generalizing turns' with
  | nil core =>
    cases other with
    | nil => exact ⟨rfl, rfl⟩
    | cons => contradiction
  | cons running fetched rest ih =>
    cases other with
    | nil => contradiction
    | cons _ fetched' rest' =>
      cases fetched.symm.trans fetched'
      obtain ⟨rfl, rfl⟩ := ih rest' (Nat.succ.inj length)
      exact ⟨rfl, rfl⟩

/-- The turns before a turn lead to the core that it finds. -/
theorem before {earlier later : List Turn} {turn : Turn}
    (course : core.Course handlers program (earlier ++ turn :: later) last) :
    core.Course handlers program earlier turn.core := by
  induction earlier generalizing core with
  | nil =>
    cases course
    exact .nil _
  | cons first others ih =>
    cases course with
    | cons running fetched rest => exact .cons running fetched (ih rest)

/-- Every turn has found the core running at its instruction. -/
theorem of_mem {turn : Turn} (course : core.Course handlers program turns last)
    (member : turn ∈ turns) :
    turn.core.cpu.halted = false ∧ program[turn.core.cpu.ip]? = some turn.instruction := by
  obtain ⟨earlier, later, rfl⟩ := List.append_of_mem member
  obtain ⟨running, fetched, -⟩ := course.split
  exact ⟨running, fetched⟩

end Core.Course

/-- A run that has come to a stop on a running core within its program has spent its fuel. -/
theorem Core.Ended.of_inside {program : List Instruction} {exhausted : Prop} {last final : Core}
    {outcome : RunOutcome} (ended : Ended program exhausted last final outcome)
    (running : last.cpu.halted = false) (inside : last.cpu.ip < program.length) :
    outcome = .outOfFuel ∧ exhausted := by
  cases ended with
  | halted stopped =>
    rw [running] at stopped
    contradiction
  | completed _ outside => omega
  | outOfFuel _ _ spent => exact ⟨rfl, spent⟩

namespace Machine

/-- The turns that a run has taken, and the core on which it has ended. -/
structure Ran (machine : Machine) (program : List Instruction) (turns : List Turn) (last : Core)
    (result : Machine × RunReport) : Prop where
  course : (machine.core.setIp 0).Course machine.handlers program turns last
  left : result.1 = { machine with core := { last with log := result.1.core.log } }
  steps : result.2.steps = turns.length
  faults : result.2.faults.toList = turns.filterMap (Turn.fault machine.handlers)

/-- A run has taken no more turns than its bound, and has ended on the core after the last. -/
theorem exists_ran (machine : Machine) (bound : Nat) (program : List Instruction) :
    let result := machine.executeWithin bound program
    ∃ turns last, machine.Ran program turns last result ∧ turns.length ≤ bound ∧
      Core.Ended program (turns.length = bound) last result.1.core result.2.outcome := by
  intro result
  obtain ⟨turns, last, course, enough, counted, collected, ended⟩ :=
    Core.exists_course machine.handlers program bound 0 #[] (machine.core.setIp 0)
  refine ⟨turns, last, ⟨course, ?_, ?_, ?_⟩, enough, ended⟩
  · exact congrArg (fun core => { machine with core }) ended.core_eq
  · exact counted.trans (Nat.zero_add _)
  · exact collected

/-- A run within fuel is a run within a bound. -/
theorem execute_of_fuel {machine : Machine} {fuel : UInt64}
    (limited : machine.core.config.fuel = some fuel) (program : List Instruction) :
    machine.execute program = machine.executeWithin fuel.toNat program := by
  rw [execute_eq, Core.allowance, limited]

end Machine

end RegisterMachine
