import Mathlib.Data.List.ReduceOption
import RegisterMachine.Proofs.Machine.Drivers
import RegisterMachine.Proofs.Machine.Faults
import RegisterMachine.Proofs.Machine.ProcessTable

/-! # What the report of a tick says

The report is put together visit by visit. It comes to what the tables before and after the tick
show: the processes that were due have been dispatched, those that were ready and are no longer have
halted, and each fault is that of a process dispatched, all in the order of the table.
-/

namespace RegisterMachine

namespace Process

variable {handlers : Handlers} {tick : Nat} {core : Core} {process later : Process}

/-! ## One visit -/

/-- Whether a process has an instruction to carry out: it is ready and points into its program. -/
def isDue (process : Process) : Bool :=
  process.isReady && decide (process.ip < process.program.length)

/-- The fault that a process raises when it is visited on a core, if it is due and raises one. -/
def faultOn (handlers : Handlers) (core : Core) (process : Process) : Option Fault :=
  if process.isReady then
    process.program[process.ip]?.bind fun instruction =>
      ((process.enter core).dispatch handlers instruction).2
  else none

/-- What a tick makes of a record that is visited on a core. -/
structure Accounted (handlers : Handlers) (tick : Nat) (core : Core)
    (process later : Process) : Prop where
  kept : process.state = .halted → later = process
  due_iff : process.isDue ↔ later.executed = process.executed + 1 ∧ later.ip = process.ip + 1 ∧
    later.lastTick = some tick
  spared : process.isDue = false → later = { process with state := later.state }
  halted_iff : process.state = .ready → (later.state = .halted ↔
    process.program.length ≤ process.ip ∨
      ∃ instruction, process.program[process.ip]? = some instruction ∧
        (process.enter core).Stops handlers instruction)

private theorem isDue_of_halted (stopped : process.state = .halted) : process.isDue = false := by
  simp [isDue, isReady_eq_false_iff.mpr stopped]

private theorem isDue_of_ended (ended : process.program[process.ip]? = none) :
    process.isDue = false := by
  simp [isDue, List.getElem?_eq_none_iff.mp ended]

private theorem isDue_of_fetched (ready : process.state = .ready) {instruction : Instruction}
    (fetched : process.program[process.ip]? = some instruction) : process.isDue = true := by
  simp [isDue, isReady_iff.mpr ready, (List.getElem?_eq_some_iff.mp fetched).1]

private theorem isDue_of_faultOn {fault : Fault}
    (raised : process.faultOn handlers core = some fault) :
    process.isDue := by
  rw [faultOn] at raised
  split at raised
  · next ready =>
    obtain ⟨instruction, fetched, -⟩ := Option.bind_eq_some_iff.mp raised
    exact isDue_of_fetched (isReady_iff.mp ready) fetched
  · contradiction

/-- What a visit makes of a record is accounted for. -/
theorem visit_account (handlers : Handlers) (tick : Nat) (core : Core) (process : Process) :
    process.Accounted handlers tick core (process.visit handlers tick core).2.1 := by
  cases state : process.state with
  | halted =>
    rw [visit_of_halted state]
    have idle := isDue_of_halted state
    refine ⟨fun _ => rfl, ?_, fun _ => rfl, fun ready => ?_⟩
    · simp [idle]
    · rw [state] at ready
      contradiction
  | ready =>
    cases fetched : process.program[process.ip]? with
    | none =>
      rw [visit_of_ended state fetched]
      have idle := isDue_of_ended fetched
      refine ⟨fun halted => ?_, ?_, fun _ => rfl, fun _ => ?_⟩
      · rw [state] at halted
        contradiction
      · simp [idle]
      · exact iff_of_true rfl (.inl (List.getElem?_eq_none_iff.mp fetched))
    | some instruction =>
      rw [visit_of_fetched state fetched]
      have due := isDue_of_fetched state fetched
      refine ⟨fun halted => ?_, iff_of_true due ⟨rfl, rfl, rfl⟩, fun idle => ?_, fun _ => ?_⟩
      · rw [state] at halted
        contradiction
      · rw [due] at idle
        contradiction
      · have inside := (List.getElem?_eq_some_iff.mp fetched).1
        have entered : (process.enter core).cpu.halted = false := rfl
        have stops : ((process.enter core).dispatch handlers instruction).1.cpu.halted = true ↔
            (process.enter core).Stops handlers instruction := Core.stops_iff entered
        simp [leave, state, stops, fetched, Nat.not_le_of_lt inside]

/-- A visit reports whether the process was due, whether it has halted and the fault it raised. -/
theorem visit_report (handlers : Handlers) (tick : Nat) (core : Core) (process : Process) :
    (process.visit handlers tick core).2.2 =
      ⟨process.isDue, process.isReady && !(process.visit handlers tick core).2.1.isReady,
        process.faultOn handlers core⟩ := by
  cases state : process.state with
  | halted =>
    have unready := isReady_eq_false_iff.mpr state
    rw [visit_of_halted state, isDue_of_halted state, faultOn, unready]
    rfl
  | ready =>
    have ready := isReady_iff.mpr state
    cases fetched : process.program[process.ip]? with
    | none =>
      rw [visit_of_ended state fetched, isDue_of_ended fetched, faultOn, ready, fetched]
      rfl
    | some instruction =>
      rw [visit_of_fetched state fetched, isDue_of_fetched state fetched, faultOn, ready, fetched]
      cases halted : ((process.enter core).dispatch handlers instruction).1.cpu.halted <;>
        simp [leave, isReady, state, halted]

end Process

/-! ## A sweep -/

namespace TickReport

private theorem dispatched_cons (pid : Nat) (visit : Process.Visit) (report : TickReport) :
    (report.cons pid visit).dispatched =
      if visit.dispatched then pid :: report.dispatched else report.dispatched := rfl

theorem halted_cons (pid : Nat) (visit : Process.Visit) (report : TickReport) :
    (report.cons pid visit).halted =
      if visit.halted then pid :: report.halted else report.halted := rfl

end TickReport

namespace Core

variable {handlers : Handlers} {tick : Nat}

private theorem sweep_cons (handlers : Handlers) (tick : Nat) (core : Core) (process : Process)
    (others : List Process) :
    core.sweep handlers tick (process :: others) =
      let visited := process.visit handlers tick core
      let rest := visited.1.sweep handlers tick others
      (rest.1, visited.2.1 :: rest.2.1, rest.2.2.cons process.pid visited.2.2) := rfl

private theorem tick_sweep (core : Core) (processes : List Process) :
    (core.sweep handlers tick processes).2.2.tick = tick := by
  induction processes generalizing core with
  | nil => rfl
  | cons process others ih => exact ih _

private theorem dispatched_sweep (core : Core) (processes : List Process) :
    (core.sweep handlers tick processes).2.2.dispatched =
      (processes.filter Process.isDue).map Process.pid := by
  induction processes generalizing core with
  | nil => rfl
  | cons process others ih =>
    rw [sweep_cons]
    simp only [TickReport.dispatched_cons, ih, Process.visit_report, List.filter_cons]
    split <;> rfl

private theorem halted_sweep (core : Core) (processes : List Process) :
    (core.sweep handlers tick processes).2.2.halted =
      ((processes.zip (core.sweep handlers tick processes).2.1).filter
        fun pair => pair.1.isReady && !pair.2.isReady).map
          fun pair => pair.1.pid := by
  induction processes generalizing core with
  | nil => rfl
  | cons process others ih =>
    rw [sweep_cons]
    simp only [TickReport.halted_cons, ih, Process.visit_report, List.zip_cons_cons,
      List.filter_cons]
    split <;> rfl

/-- The faults of a sweep are those of its visits, each on the core that the visits before it
left. -/
theorem faults_sweep (core : Core) (processes : List Process) :
    (core.sweep handlers tick processes).2.2.faults =
      (processes.mapIdx fun place process =>
        (process.faultOn handlers (core.sweep handlers tick (processes.take place)).1).map
          fun fault => (process.pid, fault)).reduceOption := by
  induction processes generalizing core with
  | nil => rfl
  | cons process others ih =>
    have start : (core.sweep handlers tick ((process :: others).take 0)).1 = core := rfl
    rw [sweep_cons, List.mapIdx_cons, start]
    simp only [TickReport.faults_cons, ih, Process.visit_report, List.take_succ_cons, sweep_cons]
    cases process.faultOn handlers core <;> rfl

/-- A sweep makes of each record what its visit does on the core that the visits before it left. -/
theorem getElem?_sweep (core : Core) (processes : List Process) (place : Nat) :
    (core.sweep handlers tick processes).2.1[place]? =
      processes[place]?.map fun process =>
        (process.visit handlers tick (core.sweep handlers tick (processes.take place)).1).2.1 := by
  induction processes generalizing core place with
  | nil => rfl
  | cons process others ih =>
    cases place with
    | zero => rfl
    | succ place =>
      rw [sweep_cons]
      simp only [List.getElem?_cons_succ, ih]
      rfl

/-- A sweep reports faults of processes that it has dispatched, in their order. -/
theorem faults_sublist_dispatched (core : Core) (processes : List Process) :
    ((core.sweep handlers tick processes).2.2.faults.map Prod.fst).Sublist
      (core.sweep handlers tick processes).2.2.dispatched := by
  induction processes generalizing core with
  | nil => exact .slnil
  | cons process others ih =>
    rw [sweep_cons]
    dsimp only
    have later := ih (process.visit handlers tick core).1
    rw [TickReport.faults_cons, TickReport.dispatched_cons, Process.visit_report]
    cases raised : process.faultOn handlers core with
    | none =>
      split
      · exact later.cons _
      · exact later
    | some fault =>
      rw [if_pos (Process.isDue_of_faultOn raised)]
      exact later.cons_cons _

private theorem nodup_sweep (core : Core) {processes : List Process}
    (distinct : (processes.map Process.pid).Nodup) :
    (core.sweep handlers tick processes).2.2.dispatched.Nodup ∧
      (core.sweep handlers tick processes).2.2.halted.Nodup ∧
      ((core.sweep handlers tick processes).2.2.faults.map Prod.fst).Nodup := by
  have dispatched : (core.sweep handlers tick processes).2.2.dispatched.Nodup := by
    rw [dispatched_sweep]
    exact distinct.sublist (List.filter_sublist.map _)
  refine ⟨dispatched, ?_, dispatched.sublist (faults_sublist_dispatched core processes)⟩
  have pairs : (processes.zip (core.sweep handlers tick processes).2.1).map
      (fun pair => pair.1.pid) = processes.map Process.pid := by
    have length := (core.sweep_visited handlers tick processes).length_eq
    calc
      _ = ((processes.zip _).map Prod.fst).map Process.pid := List.map_map.symm
      _ = processes.map Process.pid := by rw [List.map_fst_zip (Nat.le_of_eq length)]
  rw [halted_sweep]
  exact (pairs ▸ distinct).sublist (List.filter_sublist.map _)

end Core

namespace Machine

/-! ## A tick -/

/-- The core that the process at a place of the table finds in the next tick, as the visits before
it leave it. -/
def coreAt (machine : Machine) (place : Nat) : Core :=
  (machine.core.sweep machine.handlers (machine.table.ticks + 1)
    (machine.table.processes.take place)).1

/-- A tick of processes that are all halted counts and does nothing else. -/
theorem tick_of_halted {machine : Machine}
    (halted : ∀ process ∈ machine.table.processes, process.state = .halted) :
    machine.tick.1 =
      { machine with table := { machine.table with ticks := machine.table.ticks + 1 } } := by
  obtain ⟨core, table, handlers⟩ := machine
  have swept := core.sweep_append halted handlers (table.ticks + 1) []
  rw [List.append_nil] at swept
  rw [tick]
  dsimp only
  rw [swept]
  simp [Core.sweep]

/-- The report of a tick says exactly what the tick has done. It lists, in the order of the table,
the processes that were due, those that were ready before and are not after, and the faults that
those dispatched have raised, at most one each. A process that was due has moved on by one and been
counted in this tick; of any other nothing but the state can have changed, and nothing at all if it
was halted; a process that was ready halts if its program has ended, or its instruction stops it.
Where no process is ready nothing changes but the count of ticks. -/
theorem tick_report (machine : Machine) :
    let tick := machine.table.ticks + 1
    let before := machine.table.processes
    let after := machine.tick.1.table.processes
    let report := machine.tick.2
    report.tick = tick ∧ machine.tick.1.table.ticks = tick ∧
    report.dispatched = (before.filter Process.isDue).map Process.pid ∧
    report.halted = ((before.zip after).filter
      fun pair => pair.1.isReady && !pair.2.isReady).map
        (fun pair => pair.1.pid) ∧
    report.faults = (before.mapIdx fun place process =>
      (process.faultOn machine.handlers (machine.coreAt place)).map
        fun fault => (process.pid, fault)).reduceOption ∧
    (report.faults.map Prod.fst).Sublist report.dispatched ∧
    ((before.map Process.pid).Nodup →
      report.dispatched.Nodup ∧ report.halted.Nodup ∧ (report.faults.map Prod.fst).Nodup) ∧
    after.length = before.length ∧
    (∀ (place : Nat) (process later : Process),
      before[place]? = some process → after[place]? = some later →
      process.Accounted machine.handlers tick (machine.coreAt place) later) ∧
    ((∀ process ∈ before, process.state = .halted) →
      machine.tick.1 = { machine with table := { machine.table with ticks := tick } }) := by
  intro tick before after report
  refine ⟨Core.tick_sweep _ _, rfl, Core.dispatched_sweep _ _, Core.halted_sweep _ _,
    Core.faults_sweep _ _, Core.faults_sublist_dispatched _ _, Core.nodup_sweep _,
    machine.tick_visited.length_eq.symm, ?_, tick_of_halted⟩
  intro place process later found foundLater
  have visited : after[place]? = before[place]?.map _ := Core.getElem?_sweep _ _ place
  rw [found, foundLater] at visited
  cases visited
  exact process.visit_account _ _ _

/-- Seven processes: the first has no instruction, the next three are stopped by theirs, the fifth
goes on after a fault, the sixth without one, and the last was killed before. -/
theorem tick_report_samples :
    let programs : List (List Instruction) :=
      [[], [.halt], [.pop .ax], [.other "nop" none], [.makeDirectory ".."], [.banner], [.banner]]
    let machine := (Machine.ofConfig {}).run (programs.map .spawn ++ [.kill 7])
    let idle := Machine.ofConfig {}
    machine.tick.2 = {
      tick := 1
      dispatched := [2, 3, 4, 5, 6]
      halted := [1, 2, 3, 4]
      faults := [(3, .bounds .stackUnderflow), (4, .unknownMnemonic "nop"),
        (5, .files (.invalidName ".."))] } ∧
    machine.tick.2.dispatched.Nodup ∧
    (∃ process later, machine.table.processes[4]? = some process ∧
      machine.tick.1.table.processes[4]? = some later ∧
      later.executed = process.executed + 1 ∧ later.lastTick = some 1) ∧
    idle.tick.1 = { idle with table := { idle.table with ticks := 1 } } := by
  intro programs machine idle
  obtain ⟨-, -, -, -, -, -, distinct, -, records, -⟩ := tick_report machine
  obtain ⟨-, -, -, -, -, -, -, -, -, still⟩ := tick_report idle
  have account := records 4 _ _ rfl rfl
  obtain ⟨executed, -, counted⟩ := account.due_iff.mp rfl
  exact ⟨by decide, (distinct (by decide)).1, ⟨_, _, rfl, rfl, executed, counted⟩,
    still (by decide)⟩

end Machine

end RegisterMachine
