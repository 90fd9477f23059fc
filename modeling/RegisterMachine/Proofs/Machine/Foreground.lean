import RegisterMachine.Machine.Run
import RegisterMachine.Proofs.Machine.Agreement

/-! # Turns of a foreground run

A run takes one turn after another until the core is halted, the pointer leaves the program or the
fuel is spent; a turn dispatches one instruction, collects its fault and reports it. Runs on cores
that agree come to the same report on cores that agree, and a program of instructions that change
neither memory nor files leaves both as they are.
-/

namespace RegisterMachine

/-- The faults of a run with the fault of its latest turn, if it raised one. -/
def collect (faults : Array Fault) : Option Fault → Array Fault
  | some fault => faults.push fault
  | none => faults

theorem toList_collect (faults : Array Fault) (fault : Option Fault) :
    (collect faults fault).toList = faults.toList ++ fault.toList := by
  cases fault <;> simp [collect]

namespace Core

/-- The core with the fault of a foreground instruction reported, if it raised one. -/
def reported (core : Core) (fetched : Nat) : Option Fault → Core
  | some fault => core.report none fetched fault
  | none => core

theorem cpu_reported (core : Core) (fetched : Nat) (fault : Option Fault) :
    (core.reported fetched fault).cpu = core.cpu := by
  cases fault <;> rfl

theorem output_reported (core : Core) (fetched : Nat) (fault : Option Fault) :
    (core.reported fetched fault).output = core.output := by
  cases fault <;> rfl

theorem config_reported (core : Core) (fetched : Nat) (fault : Option Fault) :
    (core.reported fetched fault).config = core.config := by
  cases fault <;> rfl

theorem shares_reported (core : Core) (fetched : Nat) (fault : Option Fault) :
    core.Shares (core.reported fetched fault) := by
  cases fault <;> exact ⟨rfl, rfl, rfl⟩

variable {handlers : Handlers} {program : Array Instruction} {fuel steps : Nat}
  {faults : Array Fault} {core left right : Core} {before before' : Array String}

/-! ## Turns -/

theorem runFrom_of_halted (stopped : core.cpu.halted = true) :
    runFrom handlers program fuel steps faults core = (core, ⟨.halted, steps, faults⟩) := by
  cases fuel <;> rw [runFrom, if_pos stopped]

theorem runFrom_of_ended (running : core.cpu.halted = false)
    (ended : program[core.cpu.ip]? = none) :
    runFrom handlers program fuel steps faults core = (core, ⟨.completed, steps, faults⟩) := by
  cases fuel <;> simp [runFrom, running, ended]

theorem runFrom_of_spent (running : core.cpu.halted = false) {instruction : Instruction}
    (fetched : program[core.cpu.ip]? = some instruction) :
    runFrom handlers program 0 steps faults core =
      (core.note .warning s!"out of fuel after {steps} instructions at ip={core.cpu.ip}",
        ⟨.outOfFuel, steps, faults⟩) := by
  simp [runFrom, running, fetched]

theorem runFrom_turn (running : core.cpu.halted = false) {instruction : Instruction}
    (fetched : program[core.cpu.ip]? = some instruction) :
    runFrom handlers program (fuel + 1) steps faults core =
      runFrom handlers program fuel (steps + 1)
        (collect faults (core.dispatch handlers instruction).2)
        ((core.dispatch handlers instruction).1.reported core.cpu.ip
          (core.dispatch handlers instruction).2) := by
  rw [runFrom, if_neg (by simp [running])]
  simp only [fetched]
  rcases core.dispatch handlers instruction with ⟨stepped, _ | fault⟩ <;> rfl

/-- Whatever holds where a run ends and is handed back from each turn to the state before it holds
of every run. -/
@[elab_as_elim]
theorem runFrom_induction (handlers : Handlers) (program : Array Instruction)
    {motive : Nat → Nat → Array Fault → Core → Prop}
    (halted : ∀ fuel steps faults (core : Core), core.cpu.halted = true →
      motive fuel steps faults core)
    (ended : ∀ fuel steps faults (core : Core), core.cpu.halted = false →
      program[core.cpu.ip]? = none → motive fuel steps faults core)
    (spent : ∀ steps faults (core : Core) instruction, core.cpu.halted = false →
      program[core.cpu.ip]? = some instruction → motive 0 steps faults core)
    (turn : ∀ fuel steps faults (core : Core) instruction, core.cpu.halted = false →
      program[core.cpu.ip]? = some instruction →
      motive fuel (steps + 1) (collect faults (core.dispatch handlers instruction).2)
        ((core.dispatch handlers instruction).1.reported core.cpu.ip
          (core.dispatch handlers instruction).2) →
      motive (fuel + 1) steps faults core)
    (fuel steps : Nat) (faults : Array Fault) (core : Core) : motive fuel steps faults core := by
  induction fuel generalizing steps faults core with
  | zero =>
    cases running : core.cpu.halted with
    | true => exact halted _ _ _ _ running
    | false =>
      cases fetched : program[core.cpu.ip]? with
      | none => exact ended _ _ _ _ running fetched
      | some instruction => exact spent _ _ _ _ running fetched
  | succ fuel ih =>
    cases running : core.cpu.halted with
    | true => exact halted _ _ _ _ running
    | false =>
      cases fetched : program[core.cpu.ip]? with
      | none => exact ended _ _ _ _ running fetched
      | some instruction => exact turn _ _ _ _ _ running fetched (ih _ _ _)

/-! ## Runs -/

private theorem Agree.reported (agree : Agree before before' left right) (fetched : Nat)
    (fault : Option Fault) :
    Agree before before' (left.reported fetched fault) (right.reported fetched fault) := by
  cases fault with
  | none => exact agree
  | some fault => exact agree.note ..

/-- Runs on cores that agree go through the same turns. -/
theorem Agree.runFrom (agree : Agree before before' left right) (program : Array Instruction)
    (fuel steps : Nat) (faults : Array Fault) :
    Agree before before' (runFrom [] program fuel steps faults left).1
        (runFrom [] program fuel steps faults right).1 ∧
      (runFrom [] program fuel steps faults left).2 =
        (runFrom [] program fuel steps faults right).2 := by
  induction fuel, steps, faults, left using runFrom_induction [] program generalizing right with
  | halted fuel steps faults left stopped =>
    rw [runFrom_of_halted stopped, runFrom_of_halted (agree.cpu ▸ stopped)]
    exact ⟨agree, rfl⟩
  | ended fuel steps faults left running ended =>
    rw [runFrom_of_ended running ended,
      runFrom_of_ended (agree.cpu ▸ running) (agree.cpu ▸ ended)]
    exact ⟨agree, rfl⟩
  | spent steps faults left instruction running fetched =>
    rw [runFrom_of_spent running fetched,
      runFrom_of_spent (agree.cpu ▸ running) (agree.cpu ▸ fetched)]
    exact ⟨agree.note .., rfl⟩
  | turn fuel steps faults left instruction running fetched ih =>
    obtain ⟨dispatched, same⟩ := agree.dispatch instruction
    rw [runFrom_turn running fetched,
      runFrom_turn (agree.cpu ▸ running) (agree.cpu ▸ fetched), ← same, ← agree.cpu]
    exact ih (dispatched.reported _ _)

private theorem config_runFrom (program : Array Instruction) (fuel steps : Nat)
    (faults : Array Fault)
    (core : Core) : (runFrom [] program fuel steps faults core).1.config = core.config := by
  induction fuel, steps, faults, core using runFrom_induction [] program with
  | halted fuel steps faults core stopped => rw [runFrom_of_halted stopped]
  | ended fuel steps faults core running ended => rw [runFrom_of_ended running ended]
  | spent steps faults core instruction running fetched =>
    rw [runFrom_of_spent running fetched]
    rfl
  | turn fuel steps faults core instruction running fetched ih =>
    rw [runFrom_turn running fetched, ih, config_reported, config_dispatch]

/-- A program that changes neither memory nor files leaves both as they are. -/
theorem shares_runFrom {program : Array Instruction}
    (readOnly : ∀ instruction ∈ program, instruction.isReadOnly) (fuel steps : Nat)
    (faults : Array Fault) (core : Core) :
    core.Shares (runFrom [] program fuel steps faults core).1 := by
  induction fuel, steps, faults, core using runFrom_induction [] program with
  | halted fuel steps faults core stopped =>
    rw [runFrom_of_halted stopped]
    exact .refl core
  | ended fuel steps faults core running ended =>
    rw [runFrom_of_ended running ended]
    exact .refl core
  | spent steps faults core instruction running fetched =>
    rw [runFrom_of_spent running fetched]
    exact ⟨rfl, rfl, rfl⟩
  | turn fuel steps faults core instruction running fetched ih =>
    rw [runFrom_turn running fetched]
    have member := Array.mem_of_getElem? fetched
    have dispatched := core.shares_dispatch (readOnly instruction member)
    exact (dispatched.trans (shares_reported _ _ _)).trans ih

theorem Agree.run (agree : Agree before before' left right)
    (fuel : left.config.fuel = right.config.fuel) (program : List Instruction) :
    Agree before before' (left.run [] program).1 (right.run [] program).1 ∧
      (left.run [] program).2 = (right.run [] program).2 := by
  have started : Agree before before' (left.setIp 0) (right.setIp 0) :=
    ⟨⟨agree.memory, agree.files, agree.policy⟩,
      congrArg (fun cpu => { cpu with ip := 0 }) agree.cpu, agree.printed⟩
  rw [Core.run, Core.run, allowance, fuel, ← allowance]
  exact started.runFrom _ _ _ _

theorem config_run (core : Core) (program : List Instruction) :
    (core.run [] program).1.config = core.config :=
  config_runFrom _ _ _ _ (core.setIp 0)

theorem shares_run (core : Core) {program : List Instruction} (readOnly : ReadOnly program) :
    core.Shares (core.run [] program).1 := by
  have started : core.Shares (core.setIp 0) := ⟨rfl, rfl, rfl⟩
  refine started.trans (shares_runFrom ?_ _ _ _ _)
  intro instruction member
  exact readOnly instruction (List.mem_toArray.mp member)

end Core

end RegisterMachine
