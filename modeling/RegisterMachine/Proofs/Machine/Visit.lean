import RegisterMachine.Machine.Schedule
import RegisterMachine.Proofs.Machine.Agreement

/-! # Visits of one process

A visit puts the process's own registers into the processor, so that nothing of the core matters to
it but memory, file tree and policy, and its number matters to nothing but the log. A process whose
program changes neither memory nor files leaves both as they are, however it ends.
-/

namespace RegisterMachine.Process

variable {handlers : Handlers} {tick : Nat} {core left right : Core} {process : Process}

theorem isReady_iff : process.isReady ↔ process.state = .ready := by simp [isReady]

theorem isReady_eq_false_iff : process.isReady = false ↔ process.state = .halted := by
  cases state : process.state <;> simp [isReady, state]

def withPid (process : Process) (pid : Nat) : Process := { process with pid }

/-! ## What a visit does -/

theorem visit_of_halted (stopped : process.state = .halted) :
    process.visit handlers tick core = (core, process, ⟨false, false, none⟩) := by
  rw [visit, isReady_eq_false_iff.mpr stopped]
  rfl

theorem visit_of_ended (ready : process.state = .ready)
    (ended : process.program[process.ip]? = none) :
    process.visit handlers tick core =
      (core.note .info s!"pid {process.pid} finished", { process with state := .halted },
        ⟨false, true, none⟩) := by
  rw [visit, if_pos (isReady_iff.mpr ready), ended]

private theorem cpu_reported (process : Process) (core : Core) (fault : Option Fault) :
    (process.reported core fault).cpu = core.cpu := by
  cases fault <;> rfl

theorem output_reported (process : Process) (core : Core) (fault : Option Fault) :
    (process.reported core fault).output = core.output := by
  cases fault <;> rfl

private theorem config_reported (process : Process) (core : Core) (fault : Option Fault) :
    (process.reported core fault).config = core.config := by
  cases fault <;> rfl

theorem shares_reported (process : Process) (core : Core) (fault : Option Fault) :
    core.Shares (process.reported core fault) := by
  cases fault <;> exact ⟨rfl, rfl, rfl⟩

theorem visit_of_fetched (ready : process.state = .ready) {instruction : Instruction}
    (fetched : process.program[process.ip]? = some instruction) :
    process.visit handlers tick core =
      let outcome := (process.enter core).dispatch handlers instruction
      (process.reported outcome.1 outcome.2, process.leave tick outcome.1.cpu,
        ⟨true, outcome.1.cpu.halted, outcome.2⟩) := by
  rw [visit, if_pos (isReady_iff.mpr ready), fetched]
  simp only [cpu_reported]

/-! ## Visits on cores that share their surroundings -/

theorem shares_enter (process : Process) (core : Core) : core.Shares (process.enter core) :=
  ⟨rfl, rfl, rfl⟩

/-- A visit depends on the surroundings alone, and on the number of the process not at all. -/
theorem visit_withPid (shares : left.Shares right) (tick pid : Nat) (process : Process) :
    (process.visit [] tick left).1.Shares ((process.withPid pid).visit [] tick right).1 ∧
      ((process.withPid pid).visit [] tick right).2.1 =
        (process.visit [] tick left).2.1.withPid pid ∧
      ((process.withPid pid).visit [] tick right).2.2 = (process.visit [] tick left).2.2 := by
  cases state : process.state with
  | halted =>
    rw [visit_of_halted state, visit_of_halted (show (process.withPid pid).state = _ from state)]
    exact ⟨shares, rfl, rfl⟩
  | ready =>
    have ready : (process.withPid pid).state = .ready := state
    cases fetched : process.program[process.ip]? with
    | none =>
      rw [visit_of_ended state fetched, visit_of_ended ready fetched]
      exact ⟨⟨shares.memory, shares.files, shares.policy⟩, rfl, rfl⟩
    | some instruction =>
      have entered : (process.enter left).Shares ((process.withPid pid).enter right) :=
        ⟨shares.memory, shares.files, shares.policy⟩
      obtain ⟨dispatched, same⟩ := (entered.agree rfl).dispatch instruction
      rw [visit_of_fetched state fetched, visit_of_fetched ready fetched]
      dsimp only
      rw [← same, ← dispatched.cpu]
      refine ⟨?_, rfl, rfl⟩
      exact ((shares_reported _ _ _).symm.trans dispatched.toShares).trans (shares_reported _ _ _)

/-- A program that changes neither memory nor files leaves both as they are. -/
theorem shares_visit (readOnly : ReadOnly process.program) (tick : Nat) (core : Core) :
    core.Shares (process.visit [] tick core).1 := by
  cases state : process.state with
  | halted =>
    rw [visit_of_halted state]
    exact .refl core
  | ready =>
    cases fetched : process.program[process.ip]? with
    | none =>
      rw [visit_of_ended state fetched]
      exact ⟨rfl, rfl, rfl⟩
    | some instruction =>
      have member := List.mem_of_getElem? fetched
      have dispatched := (process.enter core).shares_dispatch (readOnly instruction member)
      rw [visit_of_fetched state fetched]
      exact ((process.shares_enter core).trans dispatched).trans (shares_reported _ _ _)

theorem config_visit (tick : Nat) (core : Core) (process : Process) :
    (process.visit [] tick core).1.config = core.config := by
  cases state : process.state with
  | halted => rw [visit_of_halted state]
  | ready =>
    cases fetched : process.program[process.ip]? with
    | none =>
      rw [visit_of_ended state fetched]
      rfl
    | some instruction =>
      rw [visit_of_fetched state fetched]
      dsimp only
      rw [config_reported, Core.config_dispatch]
      rfl

end RegisterMachine.Process
