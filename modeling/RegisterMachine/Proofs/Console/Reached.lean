import RegisterMachine.Proofs.Console.Output
import RegisterMachine.Proofs.Files.Invariant
import RegisterMachine.Proofs.Machine.Faults
import RegisterMachine.Proofs.Machine.Footprint

/-! # Trees that consoles reach

Whatever instructions, ticks and commands make of the file tree, they make of it by operations. So
what every run of operations keeps, every console keeps: its working path leads to a directory, and
a valid name can always be written there.
-/

namespace RegisterMachine

namespace Files

def Reaches (before after : Files) : Prop := ∃ operations, before.run operations = after

variable {before middle after : Files}

private theorem Reaches.refl (files : Files) : files.Reaches files := ⟨[], rfl⟩

private theorem Reaches.trans (first : before.Reaches middle) (second : middle.Reaches after) :
    before.Reaches after := by
  obtain ⟨operations, rfl⟩ := first
  obtain ⟨others, rfl⟩ := second
  exact ⟨operations ++ others, List.foldl_append⟩

private theorem reaches_after (files : Files) (operation : Operation) :
    files.Reaches (files.after operation) := ⟨[operation], rfl⟩

/-- What is reached from the empty tree is as runs of operations leave it. -/
theorem Reaches.invariant (reached : Reaches {} after) : Invariant after := by
  obtain ⟨operations, rfl⟩ := reached
  exact invariant_empty.run operations

end Files

namespace Core

variable {handlers : Handlers} {core : Core}

/-! ## Instructions -/

/-- Handlers that change the file tree by operations and in no other way. -/
def OnlyOperate (handlers : Handlers) : Prop :=
  ∀ handler ∈ handlers, ∀ (core : Core) operand,
    core.files.Reaches (handler core operand).1.files

private theorem onlyOperate_nil : OnlyOperate [] := List.forall_mem_nil _

private theorem files_step_operation (core : Core) (operation : Files.Operation) :
    (core.step operation.instruction).1.files = core.files.after operation := by
  rw [step_instruction, Files.after]
  cases core.files.perform operation with
  | ok done => simp [emitAll_eq, next, advance, setIp]
  | error error => rfl

private theorem files_reach_step (core : Core) (instruction : Instruction) :
    core.files.Reaches (core.step instruction).1.files := by
  cases changes : instruction.changesFiles with
  | false =>
    rw [files_step_of_kept changes]
    exact .refl _
  | true =>
    have asked : ∃ operation : Files.Operation, operation.instruction = instruction := by
      cases instruction with
      | makeDirectory name => exact ⟨.makeDirectory name, rfl⟩
      | changeDirectory name => exact ⟨.changeDirectory name, rfl⟩
      | writeFile name content => exact ⟨.write name content, rfl⟩
      | remove name => exact ⟨.remove name, rfl⟩
      | _ => contradiction
    obtain ⟨operation, rfl⟩ := asked
    rw [files_step_operation]
    exact Files.reaches_after _ _

private theorem files_reach_apply (operate : OnlyOperate handlers) (core : Core)
    (instruction : Instruction) :
    core.files.Reaches (core.apply handlers instruction).1.files := by
  cases learnt : core.handler? handlers instruction with
  | none =>
    rw [apply_of_unlearnt learnt]
    exact core.files_reach_step instruction
  | some handler =>
    obtain ⟨name, operand, rfl, found⟩ := handler?_eq_some_iff.mp learnt
    rw [apply, found]
    exact operate handler (mem_of_found found) core operand

private theorem files_reach_dispatch (operate : OnlyOperate handlers) (core : Core)
    (instruction : Instruction) :
    core.files.Reaches (core.dispatch handlers instruction).1.files := by
  have applied := files_reach_apply operate core instruction
  cases raised : (core.dispatch handlers instruction).2 with
  | none =>
    rw [dispatch_of_none raised]
    exact applied
  | some fault =>
    rw [(dispatch_of_fault raised).2, settle_eq]
    exact applied

/-! ## Runs and sweeps -/

private theorem files_reach_runFrom (operate : OnlyOperate handlers) (program : Array Instruction)
    (fuel steps : Nat) (faults : Array Fault) (core : Core) :
    core.files.Reaches (core.runFrom handlers program fuel steps faults).1.files := by
  induction fuel, steps, faults, core using runFrom_induction handlers program with
  | halted fuel steps faults core stopped =>
    rw [runFrom_of_halted stopped]
    exact .refl _
  | ended fuel steps faults core running ended =>
    rw [runFrom_of_ended running ended]
    exact .refl _
  | spent steps faults core instruction running fetched =>
    rw [runFrom_of_spent running fetched]
    exact .refl _
  | turn fuel steps faults core instruction running fetched ih =>
    rw [runFrom_turn running fetched]
    rw [← (shares_reported _ _ _).files] at ih
    exact (files_reach_dispatch operate core instruction).trans ih

private theorem files_reach_visit (operate : OnlyOperate handlers) (tick : Nat) (core : Core)
    (process : Process) :
    core.files.Reaches (process.visit handlers tick core).1.files := by
  cases state : process.state with
  | halted =>
    rw [process.visit_of_halted state]
    exact .refl _
  | ready =>
    cases fetched : process.program[process.ip]? with
    | none =>
      rw [process.visit_of_ended state fetched]
      exact .refl _
    | some instruction =>
      rw [process.visit_of_fetched state fetched]
      dsimp only
      rw [← (process.shares_reported _ _).files]
      exact files_reach_dispatch operate (process.enter core) instruction

private theorem files_reach_sweep (operate : OnlyOperate handlers) (tick : Nat) (core : Core)
    (processes : List Process) :
    core.files.Reaches (core.sweep handlers tick processes).1.files := by
  induction processes generalizing core with
  | nil => exact .refl _
  | cons process others ih => exact (files_reach_visit operate tick core process).trans (ih _)

end Core

namespace Machine

variable {machine : Machine}

private theorem files_reach_tick (operate : Core.OnlyOperate machine.handlers) :
    machine.core.files.Reaches machine.tick.1.core.files :=
  Core.files_reach_sweep operate _ _ _

private theorem files_reach_execute (operate : Core.OnlyOperate machine.handlers)
    (program : List Instruction) :
    machine.core.files.Reaches (machine.execute program).1.core.files :=
  Core.files_reach_runFrom operate program.toArray _ 0 #[] (machine.core.setIp 0)

end Machine

/-! ## Commands -/

namespace Console

variable {machine : Machine}

/-- A way from one machine to another on which the tree is changed by operations only. -/
structure Proceeds (machine after : Machine) : Prop where
  files : machine.core.files.Reaches after.core.files
  handlers : after.handlers = machine.handlers

private theorem Proceeds.refl (machine : Machine) : Proceeds machine machine := ⟨.refl _, rfl⟩

private theorem Proceeds.trans {middle after : Machine} (first : Proceeds machine middle)
    (second : Proceeds middle after) : Proceeds machine after :=
  ⟨first.files.trans second.files, second.handlers.trans first.handlers⟩

private theorem proceeds_ticks (operate : Core.OnlyOperate machine.handlers) (count : Nat) :
    Proceeds machine (ticks machine count).1 := by
  induction count generalizing machine with
  | zero => exact .refl _
  | succ count ih =>
    have later : Core.OnlyOperate machine.tick.1.takeOutput.2.handlers := operate
    obtain ⟨files, handlers⟩ := ih later
    exact ⟨(Machine.files_reach_tick operate).trans files, handlers⟩

/-- A command that succeeds has changed the tree by operations only. -/
theorem proceeds_perform (operate : Core.OnlyOperate machine.handlers) {verb : String}
    {rest : List Char} {done : Machine × List String}
    (success : perform machine verb rest = .ok done) : Proceeds machine done.1 := by
  cases does_of_perform success with
  | @files _ _ operation _ _ asked performed =>
    have changed := machine.core.files.reaches_after operation
    rw [Files.after, performed] at changed
    exact ⟨changed, rfl⟩
  | shows _ | spawn _ | reset => exact ⟨.refl _, rfl⟩
  | kill read there =>
    obtain ⟨table, -, rfl⟩ := map_eq_ok_iff.mp there
    exact ⟨.refl _, rfl⟩
  | tick asked => exact proceeds_ticks operate _
  | @run _ program _ _ running read executed =>
    have files := Machine.files_reach_execute operate program
    rw [executed] at files
    exact ⟨files, congrArg (·.1.handlers) executed.symm⟩

/-- Whatever happens to a console changes its tree by operations only. -/
theorem proceeds_respond (operate : Core.OnlyOperate machine.handlers) (event : Event) :
    Proceeds machine (respond machine event).1 := by
  cases event with
  | tick | background => exact ⟨Machine.files_reach_tick operate, rfl⟩
  | command line =>
    show Proceeds machine (answer machine line).1
    rw [answer]
    split
    · exact .refl _
    · next verb rest start =>
      split
      · exact .refl _
      · cases performed : perform machine (String.ofList verb) rest with
        | ok done =>
          obtain ⟨files, handlers⟩ := proceeds_perform operate performed
          exact ⟨files, handlers⟩
        | error error => exact ⟨.refl _, rfl⟩

/-- Over any events, the tree of a console is changed by operations only. -/
theorem proceeds_session (operate : Core.OnlyOperate machine.handlers) (events : List Event) :
    Proceeds machine (session respond machine events).1 := by
  induction events generalizing machine with
  | nil => exact .refl _
  | cons event others ih =>
    have first := proceeds_respond operate event
    exact first.trans (ih (first.handlers ▸ operate))

/-- A console that was fresh once has a tree that operations lead to from the empty one. -/
theorem reached_session (config : Config) (events : List Event) :
    Files.Reaches {} (session respond (.ofConfig config) events).1.core.files := by
  have operate : Core.OnlyOperate (Machine.ofConfig config).handlers := Core.onlyOperate_nil
  exact (proceeds_session operate events).files

/-- Whatever has happened to a console, its working path leads to a directory, and what is written
there under a valid name is read back. -/
theorem writes_session (config : Config) (events : List Event) :
    let files := (session respond (.ofConfig config) events).1.core.files
    (∃ entries, files.here = .ok entries) ∧
      ∀ name content, Files.IsEntryName name →
        (files.after (.write name content)).read name = .ok content := by
  intro files
  have invariant : Files.Invariant files := (reached_session config events).invariant
  obtain ⟨entries, found, -⟩ := invariant.exists_here
  exact ⟨⟨entries, found⟩, fun name content valid => invariant.read_write valid content⟩

end Console

end RegisterMachine
