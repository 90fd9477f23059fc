import RegisterMachine.Proofs.Machine.Foreground
import RegisterMachine.Proofs.Machine.Sweep

/-! # Machines whose foregrounds stand alike

Two machines that have learnt nothing stand abreast when they are set up alike and have the same
processor, memory and file tree. Whatever the foreground does on both, they stay abreast and give
the same reports; spawning and killing, and ticks of processes that change neither memory nor files,
leave a machine abreast of what it was.
-/

namespace RegisterMachine.Machine

def Action.isForeground : Action → Bool
  | execute _ | dispatch _ | reset => true
  | spawn _ | kill _ | tick => false

/-- Machines that the foreground cannot tell apart. -/
structure Abreast (left right : Machine) : Prop where
  unlearnt : left.handlers = []
  unlearnt' : right.handlers = []
  shares : left.core.Shares right.core
  cpu : left.core.cpu = right.core.cpu
  config : left.core.config = right.core.config

variable {machine left right : Machine}

theorem Abreast.refl (unlearnt : machine.handlers = []) : machine.Abreast machine :=
  ⟨unlearnt, unlearnt, .refl _, rfl, rfl⟩

theorem Abreast.symm (abreast : left.Abreast right) : right.Abreast left :=
  ⟨abreast.unlearnt', abreast.unlearnt, abreast.shares.symm, abreast.cpu.symm, abreast.config.symm⟩

theorem Abreast.trans {other : Machine} (first : left.Abreast right)
    (second : right.Abreast other) : left.Abreast other :=
  ⟨first.unlearnt, second.unlearnt', first.shares.trans second.shares, first.cpu.trans second.cpu,
    first.config.trans second.config⟩

private theorem Abreast.agree (abreast : left.Abreast right) :
    Core.Agree left.core.output right.core.output left.core right.core :=
  abreast.shares.agree abreast.cpu

/-! ## The foreground -/

theorem Abreast.execute (abreast : left.Abreast right) (program : List Instruction) :
    (left.execute program).1.Abreast (right.execute program).1 ∧
      (left.execute program).2 = (right.execute program).2 := by
  have fuel := congrArg Config.fuel abreast.config
  obtain ⟨ran, reports⟩ := abreast.agree.run fuel program
  rw [Machine.execute, Machine.execute, abreast.unlearnt, abreast.unlearnt']
  refine ⟨⟨rfl, rfl, ran.toShares, ran.cpu, ?_⟩, reports⟩
  dsimp only
  rw [Core.config_run, Core.config_run, abreast.config]

theorem Abreast.foreground (abreast : left.Abreast right) {action : Action}
    (ours : action.isForeground) : (left.act action).Abreast (right.act action) := by
  cases action with
  | execute program => exact (abreast.execute program).1
  | dispatch instruction =>
    obtain ⟨dispatched, -⟩ := abreast.agree.dispatch instruction
    rw [act, act, Machine.dispatch, Machine.dispatch, abreast.unlearnt, abreast.unlearnt']
    refine ⟨rfl, rfl, dispatched.toShares, dispatched.cpu, ?_⟩
    dsimp only
    rw [Core.config_dispatch, Core.config_dispatch, abreast.config]
  | reset =>
    exact ⟨abreast.unlearnt, abreast.unlearnt',
      ⟨abreast.shares.memory, abreast.shares.files, abreast.shares.policy⟩, rfl, abreast.config⟩
  | _ => contradiction

/-! ## Processes -/

theorem abreast_spawn (unlearnt : machine.handlers = []) (program : List Instruction) :
    machine.Abreast (machine.act (.spawn program)) :=
  ⟨unlearnt, unlearnt, ⟨rfl, rfl, rfl⟩, rfl, rfl⟩

theorem abreast_kill (unlearnt : machine.handlers = []) (pid : Nat) :
    machine.Abreast (machine.act (.kill pid)) := by
  rw [act]
  split
  · next killed success =>
    obtain ⟨table, -, rfl⟩ := map_eq_ok_iff.mp success
    exact ⟨unlearnt, unlearnt, ⟨rfl, rfl, rfl⟩, rfl, rfl⟩
  · exact .refl unlearnt

/-- A tick of processes that change neither memory nor files leaves a machine abreast of what it
was: the foreground's processor is put back. -/
theorem abreast_tick (unlearnt : machine.handlers = [])
    (readOnly : ∀ process ∈ machine.table.processes, ReadOnly process.program) :
    machine.Abreast (machine.act .tick) := by
  obtain ⟨core, table, handlers⟩ := machine
  cases unlearnt
  have swept := core.shares_sweep readOnly (table.ticks + 1)
  exact ⟨rfl, rfl, ⟨swept.memory, swept.files, swept.policy⟩, rfl,
    (Core.config_sweep _ core table.processes).symm⟩

end RegisterMachine.Machine
