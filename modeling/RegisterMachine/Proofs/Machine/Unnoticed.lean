import RegisterMachine.Proofs.Machine.Trace

/-! # Differences that no instruction notices

Some differences between cores are out of what instructions read: how much fuel a run is given and
what has been learnt under a mnemonic that does not come up are such. Whatever is carried out on two
cores that differ in this way comes to the same and leaves cores that differ in this way again. This
holds of an instruction, a run and a sweep, provided that the handlers which have turns on the way
do not notice the difference either. The two sides may know different handlers, as long as the same
ones have turns.
-/

namespace RegisterMachine

/-- A likeness of cores that all effects keep and that leaves no difference in what instructions
read. -/
structure Core.Unnoticed (alike : Core → Core → Prop) : Prop where
  cpu {left right : Core} : alike left right → left.cpu = right.cpu
  memory {left right : Core} : alike left right → left.memory = right.memory
  files {left right : Core} : alike left right → left.files = right.files
  policy {left right : Core} : alike left right →
    left.config.unknownMnemonic = right.config.unknownMnemonic
  setCpu {left right : Core} (cpu : Cpu) : alike left right →
    alike { left with cpu } { right with cpu }
  note {left right : Core} (level : Log.Level) (message : String) : alike left right →
    alike (left.note level message) (right.note level message)
  alter {left right : Core} (change : Change) : alike left right →
    alike (left.alter change) (right.alter change)

/-- A turn that comes to the same with other handlers on all cores like the one that it finds. -/
def Turn.Unaware (others handlers : Handlers) (alike : Core → Core → Prop) (turn : Turn) : Prop :=
  ∀ core, alike core turn.core →
    alike (core.apply others turn.instruction).1
        (turn.core.apply handlers turn.instruction).1 ∧
      (core.apply others turn.instruction).2 = (turn.core.apply handlers turn.instruction).2

namespace Core.Unnoticed

variable {alike : Core → Core → Prop} {others handlers : Handlers} {left right : Core} {turn : Turn}

/-! ## One instruction -/

theorem setIp (unnoticed : Unnoticed alike) (same : alike left right) (ip : Nat) :
    alike (left.setIp ip) (right.setIp ip) := by
  rw [Core.setIp, Core.setIp, unnoticed.cpu same]
  exact unnoticed.setCpu _ same

private theorem undergo (unnoticed : Unnoticed alike) (same : alike left right) (effect : Effect) :
    alike (left.undergo effect).1 (right.undergo effect).1 ∧
      (left.undergo effect).2 = (right.undergo effect).2 := by
  cases effect with
  | fail fault => exact ⟨same, rfl⟩
  | next change =>
    have altered := unnoticed.alter change same
    refine ⟨?_, rfl⟩
    show alike ((left.alter change).setIp _) ((right.alter change).setIp _)
    rw [unnoticed.cpu altered]
    exact unnoticed.setIp altered _
  | redirect ip => exact ⟨unnoticed.setIp same ip, rfl⟩
  | halt =>
    refine ⟨unnoticed.note _ _ ?_, rfl⟩
    rw [Core.halt, Core.halt, unnoticed.cpu same]
    exact unnoticed.setCpu _ same

private theorem step (unnoticed : Unnoticed alike) (same : alike left right)
    (instruction : Instruction) :
    alike (left.step instruction).1 (right.step instruction).1 ∧
      (left.step instruction).2 = (right.step instruction).2 := by
  obtain ⟨effect, -, decided⟩ := right.decides_step instruction
  have recast : left = right.recast left := by
    rw [Core.recast, ← unnoticed.cpu same, ← unnoticed.memory same, ← unnoticed.files same]
  have before : right.step instruction = right.undergo effect := decided right
  have after : left.step instruction = left.undergo effect := by
    rw [recast]
    exact decided left
  rw [after, before]
  exact unnoticed.undergo same effect

/-- A turn that no handler carries out, here or on a core like the one that it finds. -/
theorem unaware (unnoticed : Unnoticed alike) (unlearnt : turn.handler? handlers = none)
    (finds : ∀ core, alike core turn.core →
      core.handler? others turn.instruction = turn.handler? handlers) :
    turn.Unaware others handlers alike := by
  intro core same
  rw [apply_of_unlearnt ((finds core same).trans unlearnt), apply_of_unlearnt unlearnt]
  exact unnoticed.step same turn.instruction

theorem unaware_nil (unnoticed : Unnoticed alike) (turn : Turn) : turn.Unaware [] [] alike :=
  unnoticed.unaware (turn.core.handler?_nil _) fun core _ =>
    (core.handler?_nil _).trans (turn.core.handler?_nil _).symm

private theorem settle (unnoticed : Unnoticed alike) (same : alike left right) (fetched : Nat)
    (fault : Fault) : alike (left.settle fetched fault) (right.settle fetched fault) := by
  rw [settle_eq, settle_eq, unnoticed.cpu same, unnoticed.policy same]
  exact unnoticed.setCpu _ same

theorem dispatch (unnoticed : Unnoticed alike) (unaware : turn.Unaware others handlers alike)
    (same : alike left turn.core) :
    alike (left.dispatch others turn.instruction).1
        (turn.core.dispatch handlers turn.instruction).1 ∧
      (left.dispatch others turn.instruction).2 =
        (turn.core.dispatch handlers turn.instruction).2 := by
  obtain ⟨applied, faults⟩ := unaware left same
  rw [Core.dispatch, Core.dispatch, unnoticed.cpu same]
  generalize left.apply others turn.instruction = after at applied faults ⊢
  generalize turn.core.apply handlers turn.instruction = before at applied faults ⊢
  obtain ⟨left, raised⟩ := after
  rcases before with ⟨right, _ | fault⟩
  · cases faults
    exact ⟨applied, rfl⟩
  · cases faults
    exact ⟨unnoticed.settle applied _ fault, rfl⟩

/-! ## Runs -/

private theorem reported (unnoticed : Unnoticed alike) (same : alike left right) (fetched : Nat)
    (fault : Option Fault) :
    alike (left.reported fetched fault) (right.reported fetched fault) := by
  cases fault with
  | none => exact same
  | some fault => exact unnoticed.note _ _ same

theorem runFrom (unnoticed : Unnoticed alike) {program : Array Instruction} {fuel : Nat}
    (unaware : ∀ turn ∈ right.turnsFrom handlers program fuel, turn.Unaware others handlers alike)
    (same : alike left right) (steps : Nat) (faults : Array Fault) :
    alike (left.runFrom others program fuel steps faults).1
        (right.runFrom handlers program fuel steps faults).1 ∧
      (left.runFrom others program fuel steps faults).2 =
        (right.runFrom handlers program fuel steps faults).2 := by
  have cpu := unnoticed.cpu same
  induction fuel, steps, faults, right using runFrom_induction handlers program
    generalizing left with
  | halted fuel steps faults right stopped =>
    rw [runFrom_of_halted stopped, runFrom_of_halted (cpu ▸ stopped)]
    exact ⟨same, rfl⟩
  | ended fuel steps faults right running ended =>
    rw [runFrom_of_ended running ended, runFrom_of_ended (cpu ▸ running) (cpu ▸ ended)]
    exact ⟨same, rfl⟩
  | spent steps faults right instruction running fetched =>
    rw [runFrom_of_spent running fetched, runFrom_of_spent (cpu ▸ running) (cpu ▸ fetched), cpu]
    exact ⟨unnoticed.note _ _ same, rfl⟩
  | turn fuel steps faults right instruction running fetched ih =>
    rw [turnsFrom_succ running fetched, List.forall_mem_cons] at unaware
    obtain ⟨dispatched, raised⟩ := unnoticed.dispatch unaware.1 same
    rw [runFrom_turn running fetched, runFrom_turn (cpu ▸ running) (cpu ▸ fetched), raised, cpu]
    have next := unnoticed.reported dispatched right.cpu.ip (right.dispatch handlers instruction).2
    exact ih unaware.2 next (unnoticed.cpu next)

/-! ## Ticks -/

private theorem visit (unnoticed : Unnoticed alike) {process : Process}
    (unaware : ∀ turn ∈ process.turn? right, turn.Unaware others handlers alike)
    (same : alike left right) (tick : Nat) :
    alike (process.visit others tick left).1 (process.visit handlers tick right).1 ∧
      (process.visit others tick left).2 = (process.visit handlers tick right).2 := by
  cases state : process.state with
  | halted =>
    rw [Process.visit_of_halted state, Process.visit_of_halted state]
    exact ⟨same, rfl⟩
  | ready =>
    cases fetched : process.program[process.ip]? with
    | none =>
      rw [Process.visit_of_ended state fetched, Process.visit_of_ended state fetched]
      exact ⟨unnoticed.note _ _ same, rfl⟩
    | some instruction =>
      have entered : alike (process.enter left) (process.enter right) := unnoticed.setCpu _ same
      have due := unaware _ (Process.turn?_of_fetched state fetched)
      obtain ⟨dispatched, raised⟩ := unnoticed.dispatch due entered
      replace dispatched : alike ((process.enter left).dispatch others instruction).1
        ((process.enter right).dispatch handlers instruction).1 := dispatched
      replace raised : ((process.enter left).dispatch others instruction).2 =
        ((process.enter right).dispatch handlers instruction).2 := raised
      rw [Process.visit_of_fetched state fetched, Process.visit_of_fetched state fetched]
      dsimp only
      rw [raised, unnoticed.cpu dispatched]
      refine ⟨?_, rfl⟩
      cases ((process.enter right).dispatch handlers instruction).2 with
      | none => exact dispatched
      | some fault => exact unnoticed.note _ _ dispatched

theorem sweep (unnoticed : Unnoticed alike) {tick : Nat} {processes : List Process}
    (unaware : ∀ turn ∈ right.sweepTurns handlers tick processes,
      turn.Unaware others handlers alike)
    (same : alike left right) :
    alike (left.sweep others tick processes).1 (right.sweep handlers tick processes).1 ∧
      (left.sweep others tick processes).2 = (right.sweep handlers tick processes).2 := by
  induction processes generalizing left right with
  | nil => exact ⟨same, rfl⟩
  | cons process later ih =>
    rw [forall_sweepTurns_cons] at unaware
    obtain ⟨visited, result⟩ := unnoticed.visit unaware.1 same tick
    obtain ⟨swept, rest⟩ := ih unaware.2 visited
    rw [Core.sweep, Core.sweep]
    exact ⟨swept, congrArg₂ (fun visited rest =>
      (visited.1 :: rest.1, rest.2.cons process.pid visited.2)) result rest⟩

end Core.Unnoticed

end RegisterMachine
