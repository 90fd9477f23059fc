import RegisterMachine.Proofs.Machine.Bystanders

/-! # The foreground and the processes, interleaved

The actions of the foreground and those of the processes are interleaved in any order. Where the
processes change neither memory nor files, the foreground reports and ends as if it were alone;
where the foreground changes neither, the processes end as if they were alone.
-/

namespace RegisterMachine.Machine

def Action.program : Action → List Instruction
  | spawn program | execute program => program
  | dispatch instruction => [instruction]
  | kill _ | tick | reset => []

def report? (machine : Machine) : Action → Option RunReport
  | .execute program => some (machine.execute program).2
  | _ => none

def runReports (machine : Machine) : List Action → List RunReport
  | [] => []
  | action :: others =>
    (machine.report? action).toList ++ (machine.act action).runReports others

variable {machine left right : Machine} {action : Action}

/-! ## The foreground without the processes -/

private theorem table_foreground (ours : action.isForeground) :
    (machine.act action).table = machine.table := by
  cases action <;> first | rfl | contradiction

private theorem report?_background (theirs : action.isForeground = false) :
    machine.report? action = none := by
  cases action <;> first | rfl | contradiction

private theorem Abreast.report? (abreast : left.Abreast right) (action : Action) :
    left.report? action = right.report? action := by
  cases action with
  | execute program => exact congrArg some (abreast.execute program).2
  | _ => rfl

/-- A machine stays abreast of what it was while its processes change neither memory nor files. -/
theorem abreast_background (unlearnt : machine.handlers = [])
    (records : ∀ process ∈ machine.table.processes, ReadOnly process.program)
    (theirs : action.isForeground = false) : machine.Abreast (machine.act action) := by
  cases action with
  | spawn program => exact abreast_spawn unlearnt program
  | kill pid => exact abreast_kill unlearnt pid
  | tick => exact abreast_tick unlearnt records
  | _ => contradiction

/-- Records run what they were spawned with. -/
theorem records_background
    (records : ∀ process ∈ machine.table.processes, ReadOnly process.program)
    (brought : ReadOnly action.program) (theirs : action.isForeground = false) :
    ∀ process ∈ (machine.act action).table.processes, ReadOnly process.program := by
  cases action with
  | spawn program =>
    intro process member
    rcases List.mem_append.mp member with old | new
    · exact records process old
    · rw [List.mem_singleton.mp new]
      exact brought
  | kill pid =>
    rw [table_act_kill]
    intro process member
    obtain ⟨before, old, rfl⟩ := List.mem_map.mp member
    rw [Process.struck]
    split <;> exact records before old
  | tick =>
    intro process member
    obtain ⟨index, inside, rfl⟩ := List.getElem_of_mem member
    have visited := machine.tick_visited
    have within : index < machine.table.processes.length := visited.length_eq ▸ inside
    have continues := (visited.get within inside).continues
    have before := records _ (List.getElem_mem within)
    exact continues.program_eq ▸ before
  | _ => contradiction

private theorem Abreast.interleaved (abreast : left.Abreast right) {actions : List Action}
    (records : ∀ process ∈ left.table.processes, ReadOnly process.program)
    (brought : ∀ action ∈ actions, action.isForeground = false → ReadOnly action.program) :
    left.runReports actions = right.runReports (actions.filter Action.isForeground) ∧
      (left.run actions).Abreast (right.run (actions.filter Action.isForeground)) := by
  induction actions generalizing left right with
  | nil => exact ⟨rfl, abreast⟩
  | cons action others ih =>
    have later : ∀ action ∈ others, action.isForeground = false → ReadOnly action.program :=
      fun action member => brought action (List.mem_cons_of_mem _ member)
    cases ours : action.isForeground with
    | true =>
      have kept : ∀ process ∈ (left.act action).table.processes, ReadOnly process.program := by
        rwa [table_foreground ours]
      rw [List.filter_cons_of_pos ours, runReports, runReports, abreast.report? action]
      obtain ⟨reports, ended⟩ := ih (abreast.foreground ours) kept later
      exact ⟨congrArg _ reports, ended⟩
    | false =>
      rw [List.filter_cons_of_neg (by simp [ours]), runReports, report?_background ours]
      have program := brought action List.mem_cons_self ours
      have behind := abreast_background abreast.unlearnt records ours
      exact ih (behind.symm.trans abreast) (records_background records program ours) later

/-! ## The processes without the foreground -/

/-- Machines that the processes cannot tell apart. -/
structure Alongside (left right : Machine) : Prop where
  unlearnt : left.handlers = []
  unlearnt' : right.handlers = []
  shares : left.core.Shares right.core
  table : left.table = right.table

/-- Whatever is done to the processes on both machines leaves them alongside each other. -/
theorem Alongside.background (alongside : left.Alongside right)
    (theirs : action.isForeground = false) : (left.act action).Alongside (right.act action) := by
  obtain ⟨unlearnt, unlearnt', shares, table⟩ := alongside
  cases action with
  | spawn program =>
    refine ⟨unlearnt, unlearnt', ⟨shares.memory, shares.files, shares.policy⟩, ?_⟩
    exact congrArg (fun table => (ProcessTable.spawn table program).1) table
  | kill pid =>
    have killed := abreast_kill unlearnt pid
    have killed' := abreast_kill unlearnt' pid
    refine ⟨killed.unlearnt', killed'.unlearnt', ?_, ?_⟩
    · exact (killed.shares.symm.trans shares).trans killed'.shares
    · rw [table_act_kill, table_act_kill, table]
  | tick =>
    obtain ⟨core, processes, handlers⟩ := left
    obtain ⟨core', processes', handlers'⟩ := right
    cases unlearnt
    cases unlearnt'
    cases table
    obtain ⟨swept, records⟩ :=
      Core.sweep_congr shares (processes.ticks + 1) processes.processes
    refine ⟨rfl, rfl, ⟨swept.memory, swept.files, swept.policy⟩, ?_⟩
    show ProcessTable.mk _ _ _ = ProcessTable.mk _ _ _
    rw [records]
  | _ => contradiction

/-- A foreground that changes neither memory nor files leaves a machine alongside what it was. -/
theorem Alongside.foreground (alongside : left.Alongside right) (ours : action.isForeground)
    (brought : ReadOnly action.program) : (left.act action).Alongside right := by
  obtain ⟨core, table, handlers⟩ := left
  obtain ⟨unlearnt, unlearnt', shares, same⟩ := alongside
  cases unlearnt
  cases action with
  | execute program =>
    exact ⟨rfl, unlearnt', (core.shares_run brought).symm.trans shares, same⟩
  | dispatch instruction =>
    have readOnly := brought instruction List.mem_cons_self
    exact ⟨rfl, unlearnt', (core.shares_dispatch readOnly).symm.trans shares, same⟩
  | reset => exact ⟨rfl, unlearnt', ⟨shares.memory, shares.files, shares.policy⟩, same⟩
  | _ => contradiction

private theorem Alongside.interleaved (alongside : left.Alongside right) {actions : List Action}
    (brought : ∀ action ∈ actions, action.isForeground → ReadOnly action.program) :
    (left.run actions).Alongside
      (right.run (actions.filter fun action => !action.isForeground)) := by
  induction actions generalizing left right with
  | nil => exact alongside
  | cons action others ih =>
    have later : ∀ action ∈ others, action.isForeground → ReadOnly action.program :=
      fun action member => brought action (List.mem_cons_of_mem _ member)
    cases ours : action.isForeground with
    | true =>
      rw [List.filter_cons_of_neg (by simp [ours])]
      exact ih (alongside.foreground ours (brought action List.mem_cons_self ours)) later
    | false =>
      rw [List.filter_cons_of_pos (by simp [ours])]
      exact ih (alongside.background ours) later

/-! ## Both -/

/-- Foreground and processes do not disturb each other, however their actions are interleaved on a
machine that has learnt nothing. Where the processes change neither memory nor files, the foreground
gives the same reports and ends with the same processor, memory and file tree as without them; where
the foreground changes neither, every record ends as without the foreground. -/
theorem run_interleaved (machine : Machine) (unlearnt : machine.handlers = [])
    (actions : List Action) :
    let foreground := actions.filter Action.isForeground
    let background := actions.filter fun action => !action.isForeground
    ((∀ process ∈ machine.table.processes, ReadOnly process.program) →
      (∀ action ∈ background, ReadOnly action.program) →
      machine.runReports actions = machine.runReports foreground ∧
      (machine.run actions).core.cpu = (machine.run foreground).core.cpu ∧
      (machine.run actions).core.memory = (machine.run foreground).core.memory ∧
      (machine.run actions).core.files = (machine.run foreground).core.files) ∧
    ((∀ action ∈ foreground, ReadOnly action.program) →
      (machine.run actions).table = (machine.run background).table) := by
  intro foreground background
  constructor
  · intro records programs
    obtain ⟨reports, ended⟩ := (Abreast.refl unlearnt).interleaved records
      fun action member theirs => programs action (List.mem_filter.mpr ⟨member, by simp [theirs]⟩)
    exact ⟨reports, ended.cpu, ended.shares.memory, ended.shares.files⟩
  · intro programs
    have started : machine.Alongside machine := ⟨unlearnt, unlearnt, .refl _, rfl⟩
    exact (started.interleaved fun action member ours =>
      programs action (List.mem_filter.mpr ⟨member, ours⟩)).table

/-- Processes that read between programs that write, and the other way round. -/
theorem run_interleaved_samples :
    let machine := Machine.ofConfig {}
    let readers : List Action :=
      [.spawn [.loadCell 0 .ax, .pop .bx], .execute [.load (.register .cx) 7, .push .cx], .tick,
        .execute [.pop .ax, .pop .ax], .tick, .reset, .kill 1, .execute [.halt]]
    let writers : List Action :=
      [.spawn [.load (.register .ax) 7, .push .ax, .writeFile "f" "x"], .execute [.peek], .tick,
        .execute [.loadCell 0 .bx, .readFile "f", .other "nop" none], .tick, .reset, .tick]
    ((∀ action ∈ readers.filter fun action => !action.isForeground, ReadOnly action.program) ∧
      machine.runReports readers = machine.runReports (readers.filter Action.isForeground)) ∧
    ((∀ action ∈ writers.filter Action.isForeground, ReadOnly action.program) ∧
      (machine.run writers).table =
        (machine.run (writers.filter fun action => !action.isForeground)).table) := by
  intro machine readers writers
  have reading : ∀ action ∈ readers.filter fun action => !action.isForeground,
      ReadOnly action.program := by
    decide
  have writing : ∀ action ∈ writers.filter Action.isForeground, ReadOnly action.program := by
    decide
  have alone := (run_interleaved machine rfl readers).1 (by simp [machine, ofConfig]) reading
  have undisturbed := (run_interleaved machine rfl writers).2 writing
  exact ⟨⟨reading, alone.1⟩, writing, undisturbed⟩

end RegisterMachine.Machine
