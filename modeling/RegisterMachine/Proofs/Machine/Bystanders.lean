import RegisterMachine.Proofs.Machine.Abreast

/-! # Runs with and without some processes

A run is compared with the run in which some of the processes were never spawned: the others are
spawned and killed at the same points, under the numbers that they have there, and the machine ticks
and works in the foreground as often. Where the processes left out change neither memory nor files,
whatever else becomes of them, the two runs end with the same processor, memory and file tree, and
the others have the same records.
-/

namespace RegisterMachine

/-- The process, halted if it has the number. -/
def Process.struck (pid : Nat) (process : Process) : Process :=
  if process.pid = pid then { process with state := .halted } else process

/-- The table in which the hidden processes were never spawned. -/
def ProcessTable.without (hidden : Nat → Bool) (table : ProcessTable) : ProcessTable where
  processes := shown hidden table.processes
  lastPid := rank hidden table.lastPid
  ticks := table.ticks

namespace Machine

/-- The machine in which the hidden processes were never spawned. -/
def without (hidden : Nat → Bool) (machine : Machine) : Machine :=
  { machine with table := machine.table.without hidden }

/-- What is left of an action where the hidden processes are never spawned, when the last number
given so far is known. -/
def Action.without (hidden : Nat → Bool) (last : Nat) : Action → List Action
  | spawn program => if hidden (last + 1) then [] else [spawn program]
  | kill pid => if hidden pid then [] else [kill (rank hidden pid)]
  | action => [action]

/-- What is left of actions where the hidden processes are never spawned. -/
def actionsWithout (hidden : Nat → Bool) : Nat → List Action → List Action
  | _, [] => []
  | last, action :: others =>
    action.without hidden last ++
      actionsWithout hidden (last + if action.isSpawn then 1 else 0) others

variable {hidden : Nat → Bool} {machine all rest : Machine}

/-! ## Killing -/

/-- Killing strikes whatever has the number, also where nothing has it. -/
theorem table_act_kill (machine : Machine) (pid : Nat) :
    (machine.act (.kill pid)).table = { machine.table with
      processes := machine.table.processes.map (Process.struck pid) } := by
  rw [act, kill, ProcessTable.kill]
  cases found : machine.table.get? pid with
  | some process => rfl
  | none =>
    have absent : ∀ process ∈ machine.table.processes, process.struck pid = process := by
      intro process member
      rw [ProcessTable.get?, List.find?_eq_none] at found
      exact if_neg (by simpa using found process member)
    rw [List.map_congr_left absent, List.map_id']
    rfl

private theorem shown_struck_of_hidden {pid : Nat} (unseen : hidden pid = true)
    (processes : List Process) :
    shown hidden (processes.map (Process.struck pid)) = shown hidden processes := by
  rw [shown, shown, List.filterMap_map]
  congr 1
  funext process
  simp only [Function.comp_apply, Process.struck]
  split
  · next same => simp [Process.shown?, same, unseen]
  · rfl

private theorem shown_struck_of_seen {pid : Nat} (seen : hidden pid = false)
    (processes : List Process) :
    shown hidden (processes.map (Process.struck pid)) =
      (shown hidden processes).map (Process.struck (rank hidden pid)) := by
  rw [shown, shown, List.filterMap_map, List.map_filterMap]
  congr 1
  funext process
  cases other : hidden process.pid with
  | true =>
    have different : process.pid ≠ pid := by
      rintro rfl
      rw [seen] at other
      contradiction
    simp [Process.struck, different, Process.shown?, other]
  | false =>
    have numbers : rank hidden process.pid = rank hidden pid ↔ process.pid = pid :=
      rank_inj other seen
    by_cases same : process.pid = pid
    · simp [Process.struck, Process.shown?, Process.withPid, same, seen]
    · simp [Process.struck, Process.shown?, Process.withPid, same, other, numbers]

/-! ## One action -/

/-- Machines that differ in the hidden processes alone. -/
structure Follows (hidden : Nat → Bool) (all rest : Machine) : Prop where
  abreast : all.Abreast rest
  table : rest.table = all.table.without hidden

private theorem Follows.spawn (follows : Follows hidden all rest) (program : List Instruction) :
    Follows hidden (all.act (.spawn program))
      (rest.run ((Action.spawn program).without hidden all.table.lastPid)) := by
  obtain ⟨abreast, table⟩ := follows
  have spawned := abreast_spawn abreast.unlearnt program
  rw [Action.without]
  cases seen : hidden (all.table.lastPid + 1) with
  | true =>
    refine ⟨spawned.symm.trans abreast, ?_⟩
    rw [if_pos rfl]
    show rest.table = (all.table.spawn program).1.without hidden
    simp [table, ProcessTable.spawn, ProcessTable.without, shown, Process.shown?,
      seen, rank]
  | false =>
    refine ⟨(spawned.symm.trans abreast).trans (abreast_spawn abreast.unlearnt' program), ?_⟩
    rw [if_neg Bool.false_ne_true]
    show (rest.table.spawn program).1 = (all.table.spawn program).1.without hidden
    simp [table, ProcessTable.spawn, ProcessTable.without, shown, Process.shown?,
      seen, rank, Process.withPid]

private theorem Follows.kill (follows : Follows hidden all rest) (pid : Nat) :
    Follows hidden (all.act (.kill pid))
      (rest.run ((Action.kill pid).without hidden all.table.lastPid)) := by
  obtain ⟨abreast, table⟩ := follows
  have killed := abreast_kill abreast.unlearnt pid
  rw [Action.without]
  cases seen : hidden pid with
  | true =>
    refine ⟨killed.symm.trans abreast, ?_⟩
    rw [if_pos rfl, table_act_kill]
    show rest.table = _
    simp only [table, ProcessTable.without, shown_struck_of_hidden seen]
  | false =>
    refine ⟨(killed.symm.trans abreast).trans (abreast_kill abreast.unlearnt' _), ?_⟩
    rw [if_neg Bool.false_ne_true, table_act_kill]
    show (rest.act (.kill (rank hidden pid))).table = _
    rw [table_act_kill]
    simp only [table, ProcessTable.without, shown_struck_of_seen seen]

private theorem Follows.tick (follows : Follows hidden all rest)
    (readOnly : ∀ process ∈ all.table.processes, hidden process.pid → ReadOnly process.program) :
    Follows hidden (all.act .tick) (rest.act .tick) := by
  obtain ⟨core, table, handlers⟩ := all
  obtain ⟨core', table', handlers'⟩ := rest
  obtain ⟨⟨unlearnt, unlearnt', shares, cpu, config⟩, same⟩ := follows
  cases unlearnt
  cases unlearnt'
  cases same
  obtain ⟨swept, records⟩ := Core.sweep_shown hidden shares readOnly (table.ticks + 1)
  refine ⟨⟨rfl, rfl, ⟨swept.memory, swept.files, swept.policy⟩, cpu, ?_⟩, ?_⟩
  · show (Core.sweep [] _ core _).1.config = (Core.sweep [] _ core' _).1.config
    rw [Core.config_sweep, Core.config_sweep]
    exact config
  · show ProcessTable.mk _ _ _ = ProcessTable.mk _ _ _
    congr 1

private theorem Follows.foreground (follows : Follows hidden all rest) {action : Action}
    (ours : action.isForeground) : Follows hidden (all.act action) (rest.act action) := by
  refine ⟨follows.abreast.foreground ours, ?_⟩
  cases action with
  | execute program => exact follows.table
  | dispatch instruction => exact follows.table
  | reset => exact follows.table
  | _ => contradiction

/-- What is left of an action does on the one machine what the action does on the other. -/
theorem Follows.act (follows : Follows hidden all rest)
    (readOnly : ∀ process ∈ all.table.processes, hidden process.pid → ReadOnly process.program)
    (action : Action) :
    Follows hidden (all.act action) (rest.run (action.without hidden all.table.lastPid)) := by
  cases action with
  | spawn program => exact follows.spawn program
  | kill pid => exact follows.kill pid
  | tick => exact follows.tick readOnly
  | execute program => exact follows.foreground rfl
  | dispatch instruction => exact follows.foreground rfl
  | reset => exact follows.foreground rfl

/-! ## Runs -/

/-- A record of the table is still there, with its program, at the end of every run. -/
theorem readOnly_before {actions : List Action}
    (readOnly : ∀ process ∈ (machine.run actions).table.processes, hidden process.pid →
      ReadOnly process.program) :
    ∀ process ∈ machine.table.processes, hidden process.pid → ReadOnly process.program := by
  intro process member unseen
  obtain ⟨index, found⟩ := List.mem_iff_getElem?.mp member
  obtain ⟨later, kept, continues⟩ := continues_run machine actions index process found
  rw [← continues.program_eq]
  exact readOnly later (List.mem_of_getElem? kept) (continues.pid_eq ▸ unseen)

private theorem Follows.run (follows : Follows hidden all rest) {actions : List Action}
    (readOnly : ∀ process ∈ (all.run actions).table.processes, hidden process.pid →
      ReadOnly process.program) :
    Follows hidden (all.run actions)
      (rest.run (actionsWithout hidden all.table.lastPid actions)) := by
  induction actions generalizing all rest with
  | nil => exact follows
  | cons action others ih =>
    have acted := follows.act (readOnly_before readOnly) action
    rw [actionsWithout, ← lastPid_act, Machine.run, Machine.run, List.foldl_append]
    exact ih acted readOnly

/-- Processes that change neither memory nor files are invisible to the others and to the
foreground: whatever is asked of a machine that has learnt nothing, and whatever becomes of these
processes, the run ends with the processor, memory and file tree of the run in which they were never
spawned, and the others end with the same records, under the numbers that they have there. -/
theorem run_without_bystanders (machine : Machine) (unlearnt : machine.handlers = [])
    (hidden : Nat → Bool) (actions : List Action)
    (readOnly : ∀ process ∈ (machine.run actions).table.processes, hidden process.pid →
      ReadOnly process.program) :
    let all := machine.run actions
    let rest := (machine.without hidden).run (actionsWithout hidden machine.table.lastPid actions)
    rest.core.memory = all.core.memory ∧
    rest.core.files = all.core.files ∧
    rest.core.cpu = all.core.cpu ∧
    rest.table = all.table.without hidden := by
  intro all rest
  have started : Follows hidden machine (machine.without hidden) :=
    ⟨⟨unlearnt, unlearnt, .refl _, rfl, rfl⟩, rfl⟩
  obtain ⟨abreast, table⟩ := started.run readOnly
  exact ⟨abreast.shares.memory.symm, abreast.shares.files.symm, abreast.cpu.symm, table⟩

/-- A process that reads a cell, prints, fails to pop and is killed, beside one that pushes. -/
theorem run_without_bystanders_killed :
    let machine := Machine.ofConfig {}
    let hidden := fun pid => pid == 1
    let actions : List Action :=
      [.spawn [.loadCell 0 .bx, .print (.register .bx), .pop .ax],
        .spawn [.load (.register .ax) 7, .push .ax], .tick, .tick, .tick, .kill 1, .kill 2, .tick]
    let others : List Action :=
      [.spawn [.load (.register .ax) 7, .push .ax], .tick, .tick, .tick, .kill 1, .tick]
    (∀ process ∈ (machine.run actions).table.processes, hidden process.pid →
      ReadOnly process.program) ∧
    ((machine.without hidden).run others).core.memory = (machine.run actions).core.memory ∧
    ((machine.without hidden).run others).core.files = (machine.run actions).core.files ∧
    ((machine.without hidden).run others).core.cpu = (machine.run actions).core.cpu ∧
    ((machine.without hidden).run others).table = (machine.run actions).table.without hidden := by
  intro machine hidden actions others
  have readOnly : ∀ process ∈ (machine.run actions).table.processes, hidden process.pid →
      ReadOnly process.program := by
    decide +kernel
  have left : actionsWithout hidden machine.table.lastPid actions = others := by
    decide +kernel
  have compared := run_without_bystanders machine rfl hidden actions readOnly
  rw [left] at compared
  exact ⟨readOnly, compared⟩

end Machine

end RegisterMachine
