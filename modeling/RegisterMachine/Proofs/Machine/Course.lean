import RegisterMachine.Proofs.Machine.Faults
import RegisterMachine.Proofs.Machine.Foreground

/-! # The course of a run

A run takes one turn after another, each on the core that the turn before it left, as long as that
core is not halted and points into the program. The steps of its report count the turns and the
faults are those that the turns raise, so that what can be said of the report follows from what one
turn does: a turn whose fault halts is the last.
-/

namespace RegisterMachine

/-- A turn of a run: the core that it finds and the instruction to which that points. -/
structure Turn where
  core : Core
  instruction : Instruction

namespace Turn

def handler? (handlers : Handlers) (turn : Turn) : Option Handler :=
  turn.core.handler? handlers turn.instruction

def fault (handlers : Handlers) (turn : Turn) : Option Fault :=
  (turn.core.dispatch handlers turn.instruction).2

/-- The core that a turn leaves, with its fault reported. -/
def after (handlers : Handlers) (turn : Turn) : Core :=
  (turn.core.dispatch handlers turn.instruction).1.reported turn.core.cpu.ip (turn.fault handlers)

theorem cpu_after (handlers : Handlers) (turn : Turn) :
    (turn.after handlers).cpu = (turn.core.dispatch handlers turn.instruction).1.cpu :=
  Core.cpu_reported _ _ _

private theorem config_after (turn : Turn) : (turn.after []).config = turn.core.config := by
  rw [after, Core.config_reported, Core.config_dispatch]

variable {turn : Turn} {fault : Fault}

/-- The processor after a turn that raises a fault where nothing was learnt. -/
theorem cpu_after_of_fault (raised : turn.fault [] = some fault) :
    (turn.after []).cpu = (turn.core.settle turn.core.cpu.ip fault).cpu := by
  rw [cpu_after, Core.dispatch_of_fault_of_unlearnt (Core.handler?_nil _ _) raised]

private theorem halted_after (raised : turn.fault [] = some fault)
    (halts : Core.halts turn.core.config.unknownMnemonic fault = true) :
    (turn.after []).cpu.halted = true := by
  rw [cpu_after_of_fault raised, Core.settle_eq]
  simp [halts]

private theorem ip_after (raised : turn.fault [] = some fault) (fatal : fault.isFatal) :
    (turn.after []).cpu.ip = turn.core.cpu.ip := by
  rw [cpu_after_of_fault raised, Core.settle_of_isFatal fatal]
  rfl

end Turn

namespace Core

/-- The turns that lead from one core to another by way of a program. -/
inductive Course (handlers : Handlers) (program : List Instruction) :
    Core → List Turn → Core → Prop
  | nil (core : Core) : Course handlers program core [] core
  | cons {core last : Core} {instruction : Instruction} {turns : List Turn}
      (running : core.cpu.halted = false) (fetched : program[core.cpu.ip]? = some instruction)
      (rest : Course handlers program (Turn.after handlers ⟨core, instruction⟩) turns last) :
      Course handlers program core (⟨core, instruction⟩ :: turns) last

/-- How a run ends on the core that its last turn has left, and what it makes of that core. -/
inductive Ended (program : List Instruction) (exhausted : Prop) (last : Core) :
    Core → RunOutcome → Prop
  | halted (stopped : last.cpu.halted = true) : Ended program exhausted last last .halted
  | completed (running : last.cpu.halted = false) (outside : program.length ≤ last.cpu.ip) :
      Ended program exhausted last last .completed
  | outOfFuel (running : last.cpu.halted = false) (inside : last.cpu.ip < program.length)
      (spent : exhausted) (message : String) :
      Ended program exhausted last (last.note .warning message) .outOfFuel

variable {handlers : Handlers} {program : List Instruction} {core last final : Core}
  {turns : List Turn} {exhausted : Prop} {outcome : RunOutcome}

/-! ## Runs -/

/-- A run takes no more turns than it has fuel, and ends. -/
theorem exists_course (handlers : Handlers) (program : List Instruction) (fuel steps : Nat)
    (faults : Array Fault) (core : Core) :
    let run := core.runFrom handlers program.toArray fuel steps faults
    ∃ turns last, core.Course handlers program turns last ∧ turns.length ≤ fuel ∧
      run.2.steps = steps + turns.length ∧
      run.2.faults.toList = faults.toList ++ turns.filterMap (Turn.fault handlers) ∧
      Ended program (turns.length = fuel) last run.1 run.2.outcome := by
  induction fuel, steps, faults, core using runFrom_induction handlers program.toArray with
  | halted fuel steps faults core stopped =>
    rw [runFrom_of_halted stopped]
    exact ⟨[], core, .nil core, Nat.zero_le _, rfl, by simp, .halted stopped⟩
  | ended fuel steps faults core running ended =>
    rw [runFrom_of_ended running ended]
    have outside : program.length ≤ core.cpu.ip := by simpa using ended
    exact ⟨[], core, .nil core, Nat.zero_le _, rfl, by simp, .completed running outside⟩
  | spent steps faults core instruction running fetched =>
    rw [runFrom_of_spent running fetched]
    have inside : core.cpu.ip < program.length := by
      simpa using (Array.getElem?_eq_some_iff.mp fetched).1
    exact ⟨[], core, .nil core, Nat.le_refl _, rfl, by simp, .outOfFuel running inside rfl _⟩
  | turn fuel steps faults core instruction running fetched ih =>
    rw [runFrom_turn running fetched]
    obtain ⟨turns, last, course, enough, counted, collected, ended⟩ := ih
    have fetched : program[core.cpu.ip]? = some instruction := by simpa using fetched
    refine ⟨⟨core, instruction⟩ :: turns, last, .cons running fetched course, ?_, ?_, ?_, ?_⟩
    · exact Nat.succ_le_succ enough
    · rw [counted, List.length_cons]
      omega
    · rw [collected, toList_collect, List.append_assoc, List.filterMap_cons, Turn.fault]
      cases (core.dispatch handlers instruction).2 <;> rfl
    · simpa using ended

namespace Ended

/-! ## Ends -/

theorem core_eq (ended : Ended program exhausted last final outcome) :
    final = { last with log := final.log } := by
  cases ended <;> rfl

theorem cpu_eq (ended : Ended program exhausted last final outcome) : final.cpu = last.cpu := by
  cases ended <;> rfl

private theorem halted_iff (ended : Ended program exhausted last final outcome) :
    outcome = .halted ↔ final.cpu.halted = true := by
  cases ended with
  | halted stopped => exact iff_of_true rfl stopped
  | completed running => simp [running]
  | outOfFuel running => simp [note, running]

private theorem completed_iff (ended : Ended program exhausted last final outcome) :
    outcome = .completed ↔ final.cpu.halted = false ∧ program.length ≤ final.cpu.ip := by
  cases ended with
  | halted stopped => simp [stopped]
  | completed running outside => exact iff_of_true rfl ⟨running, outside⟩
  | outOfFuel running inside => simp [note, inside]

theorem outOfFuel_iff (ended : Ended program exhausted last final outcome) :
    outcome = .outOfFuel ↔
      final.cpu.halted = false ∧ final.cpu.ip < program.length ∧ exhausted := by
  cases ended with
  | halted stopped => simp [stopped]
  | completed running outside => simp [Nat.not_lt_of_le outside]
  | outOfFuel running inside spent => exact iff_of_true rfl ⟨running, inside, spent⟩

end Ended

namespace Course

/-! ## Turns on the way -/

/-- A turn on the way finds the core running at its instruction, and the rest of the course goes on
from what it leaves. -/
theorem split {earlier later : List Turn} {turn : Turn}
    (course : core.Course handlers program (earlier ++ turn :: later) last) :
    turn.core.cpu.halted = false ∧ program[turn.core.cpu.ip]? = some turn.instruction ∧
      (turn.after handlers).Course handlers program later last := by
  induction earlier generalizing core with
  | nil =>
    cases course with
    | cons running fetched rest => exact ⟨running, fetched, rest⟩
  | cons first others ih =>
    cases course with
    | cons running fetched rest => exact ih rest

/-- Nothing comes after a core that is halted. -/
theorem of_halted (course : core.Course handlers program turns last)
    (stopped : core.cpu.halted = true) : turns = [] ∧ last = core := by
  cases course with
  | nil => exact ⟨rfl, rfl⟩
  | cons running =>
    rw [stopped] at running
    contradiction

/-- Where nothing was learnt, every turn finds the configuration of the first. -/
theorem config_eq (course : core.Course [] program turns last) :
    ∀ turn ∈ turns, turn.core.config = core.config := by
  induction course with
  | nil => simp
  | cons running fetched rest ih =>
    intro turn member
    rcases List.mem_cons.mp member with rfl | member
    · rfl
    · rw [ih turn member, Turn.config_after]

/-- A fault on the way that halts was raised by the last turn, and no fault comes after it. -/
theorem fault_of_halts (course : core.Course [] program turns last) {earlier later : List Fault}
    {fault : Fault} (faults : turns.filterMap (Turn.fault []) = earlier ++ fault :: later)
    (halts : halts core.config.unknownMnemonic fault = true) :
    later = [] ∧ ∃ turn, turns.getLast? = some turn ∧ turn.fault [] = some fault ∧
      program[turn.core.cpu.ip]? = some turn.instruction ∧ last = turn.after [] ∧
      last.cpu.halted = true := by
  obtain ⟨before, rest, rfl, -, remaining⟩ := List.filterMap_eq_append_iff.mp faults
  obtain ⟨silent, turn, after, rfl, -, raised, collected⟩ :=
    List.filterMap_eq_cons_iff.mp remaining
  rw [← List.append_assoc] at course ⊢
  obtain ⟨-, fetched, course'⟩ := course.split
  have policy := course.config_eq turn (by simp)
  have stopped := Turn.halted_after raised (policy ▸ halts)
  obtain ⟨rfl, rfl⟩ := course'.of_halted stopped
  cases collected
  exact ⟨rfl, turn, by simp, raised, fetched, rfl, stopped⟩

end Course

end Core

namespace Machine

/-- A program that is run with fuel, where nothing was learnt, takes turns until it ends, each on
what the turn before it has left, and its report says exactly what they came to. There are no more
turns than there was fuel; the outcome is told by the halt flag, the pointer and the fuel; the
faults are those of the turns, at most one each, of which only the last one can halt; and a fatal
one leaves the pointer at the instruction that has raised it. -/
theorem execute_report (machine : Machine) (unlearnt : machine.handlers = []) (fuel : UInt64)
    (limited : machine.core.config.fuel = some fuel) (program : List Instruction) :
    let final := (machine.execute program).1.core
    let report := (machine.execute program).2
    ∃ turns last, (machine.core.setIp 0).Course [] program turns last ∧
      final = { last with log := final.log } ∧
      report.steps = turns.length ∧ report.steps ≤ fuel.toNat ∧
      (report.outcome = .halted ↔ final.cpu.halted = true) ∧
      (report.outcome = .completed ↔
        final.cpu.halted = false ∧ program.length ≤ final.cpu.ip) ∧
      (report.outcome = .outOfFuel ↔
        final.cpu.halted = false ∧ final.cpu.ip < program.length ∧
          report.steps = fuel.toNat) ∧
      report.faults.toList = turns.filterMap (Turn.fault []) ∧
      report.faults.size ≤ report.steps ∧
      ∀ earlier fault later, report.faults.toList = earlier ++ fault :: later →
        (later ≠ [] → fault.isFatal = false ∧
          (machine.core.config.unknownMnemonic = .halt → fault.isUnknown = false)) ∧
        (fault.isFatal → later = [] ∧ report.outcome = .halted ∧
          ∃ turn, turns.getLast? = some turn ∧ turn.fault [] = some fault ∧
            program[final.cpu.ip]? = some turn.instruction ∧
            final.cpu.ip = turn.core.cpu.ip) := by
  obtain ⟨core, table, handlers⟩ := machine
  cases unlearnt
  intro final report
  have allowed : Core.allowance core.config program = fuel.toNat := by
    rw [Core.allowance, limited]
  have ran : core.run [] program =
      (core.setIp 0).runFrom [] program.toArray fuel.toNat 0 #[] := by
    rw [Core.run, allowed]
  obtain ⟨turns, last, course, enough, counted, collected, ended⟩ :=
    Core.exists_course [] program fuel.toNat 0 #[] (core.setIp 0)
  rw [← ran] at counted collected ended
  replace counted : report.steps = turns.length := counted.trans (Nat.zero_add _)
  replace collected : report.faults.toList = turns.filterMap (Turn.fault []) := collected
  replace ended : Core.Ended program (turns.length = fuel.toNat) last final report.outcome := ended
  refine ⟨turns, last, course, ended.core_eq, counted, counted ▸ enough, ended.halted_iff,
    ended.completed_iff, counted ▸ ended.outOfFuel_iff, collected, ?_, ?_⟩
  · rw [counted, ← Array.length_toList, collected]
    exact List.length_filterMap_le _ _
  · intro earlier fault later faults
    have halts := course.fault_of_halts (collected.symm.trans faults)
    constructor
    · intro more
      have goesOn : ¬Core.halts core.config.unknownMnemonic fault = true :=
        fun stops => more (halts stops).1
      rw [Core.halts_iff, not_or, not_and'] at goesOn
      exact ⟨by simpa using goesOn.1, fun policy => by simpa using goesOn.2 policy⟩
    · intro fatal
      obtain ⟨none, turn, latest, raised, fetched, rfl, stopped⟩ :=
        halts (Core.halts_of_isFatal _ fatal)
      have cpu : final.cpu = (turn.after []).cpu := ended.cpu_eq
      have ip : final.cpu.ip = turn.core.cpu.ip := cpu ▸ Turn.ip_after raised fatal
      exact ⟨none, ended.halted_iff.mpr (cpu ▸ stopped), turn, latest, raised, ip ▸ fetched, ip⟩

/-- A program that a fatal fault stops after one that it has passed over, and one without fuel. -/
theorem execute_report_samples :
    let machine := Machine.ofConfig { fuel := some 5, unknownMnemonic := .warn }
    let stopped := machine.execute [.other "nop" none, .pop .ax, .banner]
    let dry := Machine.ofConfig { fuel := some 0 }
    let cut := dry.execute [.jump 0]
    (stopped.2 = ⟨.halted, 2, #[.unknownMnemonic "nop", .bounds .stackUnderflow]⟩ ∧
      stopped.1.core.cpu.halted = true ∧
      ∃ turn : Turn, turn.fault [] = some (.bounds .stackUnderflow) ∧
        stopped.1.core.cpu.ip = turn.core.cpu.ip) ∧
    (cut.2 = ⟨.outOfFuel, 0, #[]⟩ ∧ cut.1.core.cpu.halted = false ∧ cut.1.core.cpu.ip < 1) := by
  intro machine stopped dry cut
  have underflow : stopped.2 =
      ⟨.halted, 2, #[.unknownMnemonic "nop", .bounds .stackUnderflow]⟩ := by decide +kernel
  have empty : cut.2 = ⟨.outOfFuel, 0, #[]⟩ := by decide +kernel
  obtain ⟨turns, -, -, -, -, -, halted, -, -, -, -, faults⟩ :=
    execute_report machine rfl 5 rfl [.other "nop" none, .pop .ax, .banner]
  obtain ⟨-, -, -, -, -, -, -, -, spent, -⟩ := execute_report dry rfl 0 rfl [.jump 0]
  obtain ⟨running, inside, -⟩ := spent.mp (congrArg RunReport.outcome empty)
  obtain ⟨-, -, turn, -, raised, -, ip⟩ :=
    (faults [.unknownMnemonic "nop"] (.bounds .stackUnderflow) [] (by rw [underflow]; rfl)).2 rfl
  exact ⟨⟨underflow, halted.mp (congrArg RunReport.outcome underflow), turn, raised, ip⟩,
    empty, running, inside⟩

end Machine

end RegisterMachine
