import Mathlib.Data.List.Forall2
import RegisterMachine.Proofs.Machine.Action
import RegisterMachine.Proofs.Success

/-! # What every history keeps of the process table

The table holds one record for each spawn so far, numbered from one in the order of spawning. A
record that is ready has carried out one instruction in each tick since it was spawned, so that its
pointer, its count of instructions and the ticks since its spawning are one number; once halted it
stays as it is. No action drops or reorders records or changes what they were spawned with.
-/

namespace RegisterMachine

namespace Process

/-- What holds of a record when the table has counted some ticks. -/
structure Lawful (ticks : Nat) (process : Process) : Prop where
  ip_eq : process.ip = process.executed
  executed_le : process.executed ≤ process.program.length
  createdAt_le : process.createdAt ≤ ticks
  lastTick_eq : process.lastTick =
    if process.executed = 0 then none else some (process.createdAt + process.executed)
  executed_of_ready : process.state = .ready → process.executed = ticks - process.createdAt

/-- What a later record of a process shares with an earlier one. -/
structure Continues (before after : Process) : Prop where
  pid_eq : after.pid = before.pid
  program_eq : after.program = before.program
  createdAt_eq : after.createdAt = before.createdAt
  halted : before.state = .halted → after.state = .halted

/-- All that a visit in a given tick can make of a record. -/
inductive Visited (tick : Nat) (process : Process) : Process → Prop
  | skipped (halted : process.state = .halted) : Visited tick process process
  | finished (ready : process.state = .ready) (ended : process.program.length ≤ process.ip) :
      Visited tick process { process with state := .halted }
  | dispatched (ready : process.state = .ready) (inside : process.ip < process.program.length)
      (cpu : Cpu) : Visited tick process (process.leave tick cpu)

private theorem Continues.refl (process : Process) :
    Continues process process := ⟨rfl, rfl, rfl, id⟩

private theorem Continues.trans {first second third : Process} (earlier : Continues first second)
    (later : Continues second third) : Continues first third where
  pid_eq := later.pid_eq.trans earlier.pid_eq
  program_eq := later.program_eq.trans earlier.program_eq
  createdAt_eq := later.createdAt_eq.trans earlier.createdAt_eq
  halted stopped := later.halted (earlier.halted stopped)

/-! ## Visits -/

theorem visit_visited (handlers : Handlers) (tick : Nat) (core : Core) (process : Process) :
    Visited tick process (process.visit handlers tick core).2.1 := by
  rw [visit]
  split
  · next ready =>
    have ready : process.state = .ready := by simpa [isReady] using ready
    split
    · next ended => exact .finished ready (List.getElem?_eq_none_iff.mp ended)
    · next instruction fetched =>
      have inside := (List.getElem?_eq_some_iff.mp fetched).1
      exact .dispatched ready inside _
  · next stopped =>
    have halted : process.state = .halted := by
      cases state : process.state with
      | ready => simp [isReady, state] at stopped
      | halted => rfl
    exact .skipped halted

theorem Visited.continues {tick : Nat} {process visited : Process}
    (visit : Visited tick process visited) : Continues process visited := by
  cases visit with
  | skipped => exact .refl process
  | finished ready => exact ⟨rfl, rfl, rfl, fun _ => rfl⟩
  | dispatched ready inside cpu =>
    refine ⟨rfl, rfl, rfl, ?_⟩
    intro halted
    rw [ready] at halted
    contradiction

/-- A visit in the next tick keeps a record lawful. -/
theorem Visited.lawful {ticks : Nat} {process visited : Process}
    (visit : Visited (ticks + 1) process visited) (lawful : process.Lawful ticks) :
    visited.Lawful (ticks + 1) := by
  have created := lawful.createdAt_le
  cases visit with
  | skipped halted =>
    refine ⟨lawful.ip_eq, lawful.executed_le, by omega, lawful.lastTick_eq, ?_⟩
    intro ready
    rw [halted] at ready
    contradiction
  | finished =>
    exact ⟨lawful.ip_eq, lawful.executed_le, Nat.le_succ_of_le created, lawful.lastTick_eq,
      fun ready => by contradiction⟩
  | dispatched ready inside cpu =>
    -- While ready, the instructions carried out are exactly the ticks since spawning.
    have count := lawful.executed_of_ready ready
    have pointer := lawful.ip_eq
    refine ⟨?_, ?_, Nat.le_succ_of_le created, ?_, ?_⟩
    · simp only [leave, pointer]
    · simp only [leave]
      omega
    · simp only [leave, Nat.add_one_ne_zero, ↓reduceIte, Option.some.injEq]
      omega
    · intro _
      simp only [leave]
      omega

end Process

theorem Core.sweep_visited (handlers : Handlers) (tick : Nat) (core : Core)
    (processes : List Process) :
    List.Forall₂ (Process.Visited tick) processes (core.sweep handlers tick processes).2.1 := by
  induction processes generalizing core with
  | nil => exact .nil
  | cons process others ih =>
    rw [Core.sweep]
    exact .cons (process.visit_visited handlers tick core) (ih _)

namespace ProcessTable

/-! ## Tables -/

/-- What holds of a table at all times: its records are numbered from one up to the last number
given, and each of them is lawful. -/
structure Lawful (table : ProcessTable) : Prop where
  pids_eq : table.processes.map Process.pid = List.range' 1 table.lastPid
  records : ∀ process ∈ table.processes, process.Lawful table.ticks

/-- A later table still has every record of an earlier one in its place. -/
def Continues (before after : ProcessTable) : Prop :=
  ∀ (index : Nat) (process : Process), before.processes[index]? = some process →
    ∃ later, after.processes[index]? = some later ∧ process.Continues later

private theorem Continues.refl (table : ProcessTable) : Continues table table :=
  fun _ process found => ⟨process, found, .refl process⟩

private theorem Continues.trans {first second third : ProcessTable}
    (earlier : Continues first second)
    (later : Continues second third) : Continues first third := by
  intro index process found
  obtain ⟨middle, foundMiddle, toMiddle⟩ := earlier index process found
  obtain ⟨last, foundLast, toLast⟩ := later index middle foundMiddle
  exact ⟨last, foundLast, toMiddle.trans toLast⟩

private theorem Continues.of_forall₂ {before after : ProcessTable}
    (records : List.Forall₂ Process.Continues before.processes after.processes) :
    Continues before after := by
  intro index process found
  obtain ⟨inside, rfl⟩ := List.getElem?_eq_some_iff.mp found
  have within : index < after.processes.length := records.length_eq ▸ inside
  exact ⟨_, List.getElem?_eq_getElem within, records.get inside within⟩

private theorem isSome_get?_iff {table : ProcessTable} (lawful : table.Lawful) {pid : Nat} :
    (table.get? pid).isSome ↔ 1 ≤ pid ∧ pid ≤ table.lastPid := by
  have numbered : (table.get? pid).isSome ↔ pid ∈ table.processes.map Process.pid := by
    simp [get?]
  rw [numbered, lawful.pids_eq, List.mem_range'_1]
  omega

private theorem exists_kill_iff {table : ProcessTable} (lawful : table.Lawful) {pid : Nat} :
    (∃ killed, table.kill pid = .ok killed) ↔ 1 ≤ pid ∧ pid ≤ table.lastPid := by
  rw [← isSome_get?_iff lawful, kill]
  cases table.get? pid with
  | none => simp
  | some process => simp

/-! ## Changes of the table -/

private theorem lawful_empty : Lawful {} := ⟨rfl, by simp⟩

private theorem Lawful.spawn {table : ProcessTable} (lawful : table.Lawful)
    (program : List Instruction) :
    (table.spawn program).1.Lawful where
  pids_eq := by
    simp only [ProcessTable.spawn, List.map_append, lawful.pids_eq, List.map_cons, List.map_nil,
      List.range'_1_concat, Nat.add_comm 1]
  records := by
    intro process member
    rcases List.mem_append.mp member with old | new
    · exact lawful.records process old
    · obtain rfl := List.mem_singleton.mp new
      exact ⟨rfl, Nat.zero_le _, Nat.le_refl _, rfl, fun _ => (Nat.sub_self _).symm⟩

private theorem continues_spawn (table : ProcessTable) (program : List Instruction) :
    Continues table (table.spawn program).1 := by
  intro index process found
  have inside := (List.getElem?_eq_some_iff.mp found).1
  exact ⟨process, (List.getElem?_append_left inside).trans found, .refl process⟩

/-- What killing makes of each record. -/
private theorem kill_eq_ok {table killed : ProcessTable} {pid : Nat}
    (success : table.kill pid = .ok killed) :
    killed = { table with
      processes := table.processes.map fun process =>
        if process.pid = pid then { process with state := .halted } else process } := by
  rw [kill] at success
  split at success
  · exact (Except.ok.inj success).symm
  · contradiction

private theorem Lawful.kill {table killed : ProcessTable} (lawful : table.Lawful) {pid : Nat}
    (success : table.kill pid = .ok killed) : killed.Lawful := by
  obtain rfl := kill_eq_ok success
  refine ⟨?_, ?_⟩
  · rw [List.map_map, ← lawful.pids_eq]
    apply List.map_congr_left
    intro process _
    simp only [Function.comp_apply]
    split <;> rfl
  · intro record member
    obtain ⟨process, old, rfl⟩ := List.mem_map.mp member
    have kept := lawful.records process old
    split
    · exact ⟨kept.ip_eq, kept.executed_le, kept.createdAt_le, kept.lastTick_eq,
        fun ready => by contradiction⟩
    · exact kept

private theorem lastPid_kill {table killed : ProcessTable} {pid : Nat}
    (success : table.kill pid = .ok killed) : killed.lastPid = table.lastPid := by
  obtain rfl := kill_eq_ok success
  rfl

private theorem continues_kill {table killed : ProcessTable} {pid : Nat}
    (success : table.kill pid = .ok killed) : Continues table killed := by
  obtain rfl := kill_eq_ok success
  intro index process found
  refine ⟨_, by rw [List.getElem?_map, found, Option.map_some], ?_⟩
  split
  · exact ⟨rfl, rfl, rfl, fun _ => rfl⟩
  · exact .refl process

end ProcessTable

namespace Machine

theorem tick_visited (machine : Machine) :
    List.Forall₂ (Process.Visited (machine.table.ticks + 1)) machine.table.processes
      machine.tick.1.table.processes :=
  machine.core.sweep_visited machine.handlers _ _

private theorem ticks_tick (machine : Machine) :
    machine.tick.1.table.ticks = machine.table.ticks + 1 := rfl

private theorem lastPid_tick (machine : Machine) :
    machine.tick.1.table.lastPid = machine.table.lastPid :=
  rfl

private theorem lawful_tick {machine : Machine} (lawful : machine.table.Lawful) :
    machine.tick.1.table.Lawful := by
  have visited := machine.tick_visited
  refine ⟨?_, ?_⟩
  · rw [lastPid_tick, ← lawful.pids_eq, eq_comm, ← List.forall₂_eq_eq_eq, List.forall₂_map_left_iff,
      List.forall₂_map_right_iff]
    exact visited.imp fun process later visit => visit.continues.pid_eq.symm
  · intro later member
    rw [ticks_tick]
    obtain ⟨index, inside, rfl⟩ := List.getElem_of_mem member
    have within : index < machine.table.processes.length := visited.length_eq ▸ inside
    exact (visited.get within inside).lawful (lawful.records _ (List.getElem_mem within))

private theorem continues_tick (machine : Machine) : machine.table.Continues machine.tick.1.table :=
  .of_forall₂ (machine.tick_visited.imp fun _ _ visit => visit.continues)

/-! ## Actions -/

private theorem exists_kill_iff {machine : Machine} (lawful : machine.table.Lawful) {pid : Nat} :
    (∃ killed, machine.kill pid = .ok killed) ↔ 1 ≤ pid ∧ pid ≤ machine.table.lastPid := by
  rw [← ProcessTable.exists_kill_iff lawful]
  constructor
  · rintro ⟨killed, success⟩
    obtain ⟨table, success, -⟩ := map_eq_ok_iff.mp success
    exact ⟨table, success⟩
  · rintro ⟨table, success⟩
    exact ⟨_, map_eq_ok_iff.mpr ⟨table, success, rfl⟩⟩

/-- Killing changes the table only, apart from a record in the log. -/
theorem table_kill {machine killed : Machine} {pid : Nat}
    (success : machine.kill pid = .ok killed) :
    machine.table.kill pid = .ok killed.table := by
  obtain ⟨table, done, rfl⟩ := map_eq_ok_iff.mp success
  exact done

private theorem lawful_act {machine : Machine} (lawful : machine.table.Lawful) (action : Action) :
    (machine.act action).table.Lawful := by
  cases action with
  | spawn program => exact lawful.spawn program
  | kill pid =>
    rw [act]
    split
    · next killed success => exact lawful.kill (table_kill success)
    · exact lawful
  | tick => exact lawful_tick lawful
  | execute program => exact lawful
  | dispatch instruction => exact lawful
  | reset => exact lawful

private theorem continues_act (machine : Machine) (action : Action) :
    machine.table.Continues (machine.act action).table := by
  cases action with
  | spawn program => exact ProcessTable.continues_spawn machine.table program
  | kill pid =>
    rw [act]
    split
    · next killed success => exact ProcessTable.continues_kill (table_kill success)
    · exact .refl _
  | tick => exact continues_tick machine
  | execute program => exact .refl _
  | dispatch instruction => exact .refl _
  | reset => exact .refl _

/-- Only spawning gives a number. -/
theorem lastPid_act (machine : Machine) (action : Action) :
    (machine.act action).table.lastPid =
      machine.table.lastPid + if action.isSpawn then 1 else 0 := by
  cases action with
  | spawn program => rfl
  | kill pid =>
    rw [act]
    split
    · next killed success =>
      exact ProcessTable.lastPid_kill (table_kill success)
    · rfl
  | tick => rfl
  | execute program => rfl
  | dispatch instruction => rfl
  | reset => rfl

private theorem lawful_run {machine : Machine} (lawful : machine.table.Lawful)
    (actions : List Action) :
    (machine.run actions).table.Lawful := by
  induction actions generalizing machine with
  | nil => exact lawful
  | cons action others ih => exact ih (lawful_act lawful action)

theorem continues_run (machine : Machine) (actions : List Action) :
    machine.table.Continues (machine.run actions).table := by
  induction actions generalizing machine with
  | nil => exact .refl _
  | cons action others ih => exact (continues_act machine action).trans (ih _)

private theorem lastPid_run (machine : Machine) (actions : List Action) :
    (machine.run actions).table.lastPid =
      machine.table.lastPid + actions.countP Action.isSpawn := by
  induction actions generalizing machine with
  | nil => rfl
  | cons action others ih =>
    rw [List.countP_cons, ← Nat.add_assoc, Nat.add_right_comm, ← lastPid_act]
    exact ih _

/-- However a machine was used since it had no processes: its table holds one record for each spawn,
numbered in the order of spawning, so that exactly those numbers can be looked up and killed; every
record is lawful, and halted once the ticks since its spawning exceed the length of its program; and
whatever is done next leaves every record in its place, what it was spawned with, and a halted one
halted. -/
theorem run_table (core : Core) (handlers : Handlers) (actions later : List Action) :
    let machine := Machine.run { core, handlers } actions
    let table := machine.table
    let count := actions.countP Action.isSpawn
    table.processes.map Process.pid = List.range' 1 count ∧
    (∀ pid, (table.get? pid).isSome ↔ 1 ≤ pid ∧ pid ≤ count) ∧
    (∀ pid, (∃ killed, machine.kill pid = .ok killed) ↔ 1 ≤ pid ∧ pid ≤ count) ∧
    (∀ process ∈ table.processes, process.Lawful table.ticks) ∧
    (∀ process ∈ table.processes, process.program.length < table.ticks - process.createdAt →
      process.state = .halted) ∧
    table.Continues (machine.run later).table := by
  intro machine table count
  have lawful : table.Lawful := lawful_run ProcessTable.lawful_empty actions
  have counted : table.lastPid = count := (lastPid_run _ actions).trans (Nat.zero_add _)
  refine ⟨counted ▸ lawful.pids_eq, ?_, ?_, lawful.records, ?_, continues_run machine later⟩
  · intro pid
    rw [← counted]
    exact ProcessTable.isSome_get?_iff lawful
  · intro pid
    rw [← counted]
    exact exists_kill_iff lawful
  · intro process member exhausted
    have kept := lawful.records process member
    cases state : process.state with
    | halted => rfl
    | ready =>
      have count := kept.executed_of_ready state
      have bound := kept.executed_le
      omega

end Machine

end RegisterMachine
