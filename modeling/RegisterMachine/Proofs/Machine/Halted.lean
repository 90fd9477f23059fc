import RegisterMachine.Proofs.Machine.Interleaving
import RegisterMachine.Proofs.Machine.Faults
import RegisterMachine.Proofs.Machine.Trace

/-! # A halted foreground

No instruction clears the halt flag, and a tick puts the foreground's processor back whatever its
processes did. A foreground that has halted therefore stays halted until the machine is reset, and
until then a program run in it reports the halt and does nothing but point to its beginning.
-/

namespace RegisterMachine

namespace Core

variable {core : Core}

/-! ## One instruction -/

private theorem halted_undergo (stopped : core.cpu.halted = true) (effect : Effect) :
    (core.undergo effect).1.cpu.halted = true := by
  cases effect with
  | fail fault => exact stopped
  | next change => simp [undergo, next, advance, setIp, stopped]
  | redirect ip => exact stopped
  | halt => rfl

/-- Whatever a halted processor dispatches leaves it halted. -/
theorem halted_dispatch (stopped : core.cpu.halted = true) (instruction : Instruction) :
    (core.dispatch [] instruction).1.cpu.halted = true := by
  obtain ⟨effect, -, same⟩ := core.exists_step_eq instruction
  rw [halted_dispatch_iff, apply_of_unlearnt (handler?_nil core instruction), same]
  exact .inl (halted_undergo stopped effect)

/-! ## Runs -/

/-- A run that finds the processor halted ends before its first instruction. -/
theorem run_of_halted (stopped : core.cpu.halted = true) (handlers : Handlers)
    (program : List Instruction) : core.run handlers program = (core.setIp 0, ⟨.halted, 0, #[]⟩) :=
  runFrom_of_halted stopped

end Core

namespace Machine

variable {machine : Machine}

private theorem execute_of_halted (stopped : machine.core.cpu.halted = true)
    (program : List Instruction) :
    machine.execute program =
      ({ machine with core := { machine.core with cpu := { machine.core.cpu with ip := 0 } } },
        ⟨.halted, 0, #[]⟩) := by
  obtain ⟨core, table, handlers⟩ := machine
  rw [execute, Core.run_of_halted stopped]
  rfl

/-! ## Histories -/

/-- Nothing but a reset clears the halt flag. -/
theorem halted_act (unlearnt : machine.handlers = []) (stopped : machine.core.cpu.halted = true)
    {action : Action} (kept : action ≠ .reset) : (machine.act action).core.cpu.halted = true := by
  obtain ⟨core, table, handlers⟩ := machine
  cases unlearnt
  cases action with
  | spawn program => exact stopped
  | kill pid =>
    rw [act]
    split
    · next killed success =>
      obtain ⟨table, -, rfl⟩ := map_eq_ok_iff.mp success
      exact stopped
    · exact stopped
  | tick => exact stopped
  | execute program =>
    rw [act, execute_of_halted stopped]
    exact stopped
  | dispatch instruction => exact Core.halted_dispatch stopped instruction
  | reset => contradiction

/-- Until a reset the flag stays set, and every program that is run reports the halt. -/
theorem halted_run (unlearnt : machine.handlers = []) (stopped : machine.core.cpu.halted = true)
    {actions : List Action} (kept : .reset ∉ actions) :
    (machine.run actions).core.cpu.halted = true ∧
      ∀ report ∈ machine.runReports actions, report = ⟨.halted, 0, #[]⟩ := by
  induction actions generalizing machine with
  | nil => exact ⟨stopped, List.forall_mem_nil _⟩
  | cons action others ih =>
    have other : action ≠ .reset := (List.ne_of_not_mem_cons kept).symm
    have others : .reset ∉ others := List.not_mem_of_not_mem_cons kept
    obtain ⟨ended, reports⟩ := ih ((machine.handlers_act action).trans unlearnt)
      (halted_act unlearnt stopped other) others
    refine ⟨ended, ?_⟩
    intro report member
    rcases List.mem_append.mp member with now | later
    · cases action with
      | execute program =>
        cases List.mem_singleton.mp now
        rw [execute_of_halted stopped]
      | _ => contradiction
    · exact reports report later

/-- A foreground that has halted on a machine that has learnt nothing stays halted until a reset,
whatever is dispatched, run, spawned and killed and whatever the ticks do meanwhile. All programs
run in it report the halt after no steps and without faults, and running one more does nothing but
point to the beginning. The next reset, and no other action, clears the flag; it clears the
processor and leaves everything else. -/
theorem halted_until_reset (machine : Machine) (unlearnt : machine.handlers = [])
    (stopped : machine.core.cpu.halted = true) (actions : List Action)
    (kept : .reset ∉ actions) :
    let reached := machine.run actions
    reached.core.cpu.halted = true ∧
      (∀ report ∈ machine.runReports actions, report = ⟨.halted, 0, #[]⟩) ∧
      (∀ program, reached.execute program =
        ({ reached with core := { reached.core with cpu := { reached.core.cpu with ip := 0 } } },
          ⟨.halted, 0, #[]⟩)) ∧
      (∀ action, (reached.act action).core.cpu.halted = false ↔ action = .reset) ∧
      reached.reset = { reached with core := { reached.core with cpu := {} } } := by
  intro reached
  obtain ⟨halted, reports⟩ := halted_run unlearnt stopped kept
  have unlearnt' : reached.handlers = [] := (handlers_run machine actions).trans unlearnt
  refine ⟨halted, reports, execute_of_halted halted, ?_, rfl⟩
  intro action
  constructor
  · intro running
    by_contra other
    rw [halted_act unlearnt' halted other] at running
    contradiction
  · rintro rfl
    rfl

/-- A halt that outlasts processes that halt, fault and end, programs that would run and a mnemonic
that nothing carries out. -/
theorem halted_until_reset_samples :
    let machine := (Machine.ofConfig { unknownMnemonic := .halt }).run
      [.spawn [.halt], .spawn [.pop .ax], .spawn [.load (.register .ax) 1], .execute [.halt]]
    let actions : List Action :=
      [.tick, .execute [.jump 0], .dispatch (.other "nop" none), .kill 3, .tick,
        .dispatch (.load (.register .bx) 7), .execute [], .spawn [.halt], .kill 9]
    (machine.core.cpu.halted = true ∧ .reset ∉ actions) ∧
      (machine.run actions).core.cpu.halted = true ∧
      machine.runReports actions = [⟨.halted, 0, #[]⟩, ⟨.halted, 0, #[]⟩] ∧
      (machine.run actions).reset.core.cpu.halted = false := by
  intro machine actions
  have stopped : machine.core.cpu.halted = true := by decide +kernel
  have kept : .reset ∉ actions := by decide
  obtain ⟨halted, reports, -, clears, -⟩ := halted_until_reset machine rfl stopped actions kept
  refine ⟨⟨stopped, kept⟩, halted, ?_, (clears .reset).mpr rfl⟩
  exact List.eq_replicate_iff.mpr ⟨rfl, reports⟩

end Machine

end RegisterMachine
