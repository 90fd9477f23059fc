import RegisterMachine.Proofs.Machine.Action
import RegisterMachine.Proofs.Machine.Foreground
import RegisterMachine.Proofs.Machine.Visit

/-! # The two ways to run a program

A program can be run in the foreground, in one go, or as a process, by one tick after another. The
foreground follows the pointer and a tick always passes on to the next instruction, so the two agree
on programs that never point elsewhere: turn and tick are in step, through every fault and every way
to halt, until the process is halted for good.
-/

namespace RegisterMachine

/-- A program without an instruction that can point elsewhere than to the next. -/
def Straight (program : List Instruction) : Prop :=
  ∀ instruction ∈ program, instruction.redirects = false

instance : DecidablePred Straight := fun program =>
  inferInstanceAs (Decidable (∀ instruction ∈ program, instruction.redirects = false))

variable {idle : List Process} {process : Process} {core : Core} {machine : Machine}

/-! ## Ticks of one process -/

/-- The fault of a visit comes in front of those of the later visits. -/
theorem TickReport.faults_cons (pid : Nat) (visit : Process.Visit) (report : TickReport) :
    (report.cons pid visit).faults =
      visit.fault.toList.map (fun fault => (pid, fault)) ++ report.faults := by
  rcases visit with ⟨_, _, _ | fault⟩ <;> rfl

/-- Processes that are halted are passed over by a sweep. -/
theorem Core.sweep_append (halted : ∀ process ∈ idle, process.state = .halted)
    (handlers : Handlers) (tick : Nat) (core : Core) (others : List Process) :
    core.sweep handlers tick (idle ++ others) =
      ((core.sweep handlers tick others).1, idle ++ (core.sweep handlers tick others).2.1,
        (core.sweep handlers tick others).2.2) := by
  induction idle with
  | nil => rfl
  | cons process idle ih =>
    rw [List.cons_append, sweep, Process.visit_of_halted (halted process List.mem_cons_self)]
    dsimp only
    rw [ih fun process member => halted process (List.mem_cons_of_mem _ member)]
    rfl

namespace Machine

/-- Where only the last process can be ready, a tick visits that one. -/
theorem tick_last (unlearnt : machine.handlers = [])
    (table : machine.table.processes = idle ++ [process])
    (halted : ∀ process ∈ idle, process.state = .halted) :
    let visited := process.visit [] (machine.table.ticks + 1) machine.core
    machine.tick.1.handlers = [] ∧
    machine.tick.1.core = { visited.1 with cpu := machine.core.cpu } ∧
    machine.tick.1.table.processes = idle ++ [visited.2.1] ∧
    machine.tick.2.faults = visited.2.2.fault.toList.map fun fault => (process.pid, fault) := by
  obtain ⟨core, ⟨processes, lastPid, ticks⟩, handlers⟩ := machine
  cases unlearnt
  cases table
  intro visited
  have swept := core.sweep_append halted [] (ticks + 1) [process]
  refine ⟨rfl, ?_, ?_, ?_⟩
  · show { (core.sweep [] (ticks + 1) (idle ++ [process])).1 with cpu := core.cpu } = _
    rw [swept]
    rfl
  · show (core.sweep [] (ticks + 1) (idle ++ [process])).2.1 = _
    rw [swept]
    rfl
  · show (core.sweep [] (ticks + 1) (idle ++ [process])).2.2.faults = _
    rw [swept]
    exact (TickReport.faults_cons ..).trans (List.append_nil _)

private theorem ticks_succ (machine : Machine) (count : Nat) :
    machine.ticks (count + 1) =
      ((machine.tick.1.ticks count).1, machine.tick.2 :: (machine.tick.1.ticks count).2) := rfl

/-- The faults of one more tick come in front. -/
theorem faults_ticks_succ (machine : Machine) (count : Nat) :
    (machine.ticks (count + 1)).2.flatMap TickReport.faults =
      machine.tick.2.faults ++ (machine.tick.1.ticks count).2.flatMap TickReport.faults := by
  rw [ticks_succ, List.flatMap_cons]

end Machine

/-! ## A process in step with a run -/

/-- A machine whose last process has come as far as a run on some core has after some steps. -/
structure Mirrors (idle : List Process) (process : Process) (machine : Machine) (core : Core)
    (steps : Nat) : Prop where
  unlearnt : machine.handlers = []
  table : machine.table.processes = idle ++ [process]
  halted : ∀ other ∈ idle, other.state = .halted
  registers : process.registers = core.cpu.registers
  executed : process.executed = steps
  shares : core.Shares machine.core
  output : core.output = machine.core.output

/-- Both the process and the run go on, at the same instruction. -/
structure InStep (idle : List Process) (process : Process) (machine : Machine) (core : Core)
    (steps : Nat) : Prop extends Mirrors idle process machine core steps where
  ready : process.state = .ready
  running : core.cpu.halted = false
  ip : process.ip = core.cpu.ip

variable {steps : Nat}

/-- Once every process is halted, ticks raise no fault and change nothing but their count. -/
theorem Mirrors.ticks (mirrors : Mirrors idle process machine core steps)
    (stopped : process.state = .halted) (count : Nat) :
    Mirrors idle process (machine.ticks count).1 core steps ∧
      (machine.ticks count).2.flatMap TickReport.faults = [] := by
  induction count generalizing machine with
  | zero => exact ⟨mirrors, rfl⟩
  | succ count ih =>
    obtain ⟨unlearnt, core_tick, table, faults⟩ :=
      Machine.tick_last mirrors.unlearnt mirrors.table mirrors.halted
    rw [Process.visit_of_halted stopped] at core_tick table faults
    have ticked : Mirrors idle process machine.tick.1 core steps :=
      { mirrors with
        unlearnt, table
        shares := core_tick ▸ mirrors.shares
        output := core_tick ▸ mirrors.output }
    obtain ⟨later, none⟩ := ih ticked
    refine ⟨later, ?_⟩
    rw [Machine.faults_ticks_succ, faults, none]
    rfl

/-- Where the program has ended, the run is over and the next tick halts the process. -/
theorem InStep.tick_ended (inStep : InStep idle process machine core steps)
    (ended : process.program[core.cpu.ip]? = none) :
    Mirrors idle { process with state := .halted } machine.tick.1 core steps ∧
      machine.tick.2.faults = [] := by
  obtain ⟨unlearnt, core_tick, table, faults⟩ :=
    Machine.tick_last inStep.unlearnt inStep.table inStep.halted
  rw [← inStep.ip] at ended
  rw [Process.visit_of_ended inStep.ready ended] at core_tick table faults
  refine ⟨?_, faults⟩
  exact
    { inStep.toMirrors with
      unlearnt, table
      shares := core_tick ▸ ⟨inStep.shares.memory, inStep.shares.files, inStep.shares.policy⟩
      output := core_tick ▸ inStep.output }

/-- The core that the process enters agrees with the core of the run. -/
theorem InStep.agree (inStep : InStep idle process machine core steps) :
    Core.Agree core.output core.output core (process.enter machine.core) := by
  have shares := inStep.shares.trans (process.shares_enter machine.core)
  have cpu : core.cpu = (process.enter machine.core).cpu := by
    show core.cpu = Cpu.mk process.registers process.ip false
    rw [inStep.registers, inStep.ip, ← inStep.running]
  have entered := shares.agree cpu
  rwa [show (process.enter machine.core).output = core.output from inStep.output.symm] at entered

/-- A tick does for the process what a turn does for the run, and raises the same fault. -/
theorem InStep.tick_fetched (inStep : InStep idle process machine core steps)
    {instruction : Instruction} (fetched : process.program[core.cpu.ip]? = some instruction) :
    let outcome := core.dispatch [] instruction
    Mirrors idle (process.leave (machine.table.ticks + 1) outcome.1.cpu) machine.tick.1
        (outcome.1.reported core.cpu.ip outcome.2) (steps + 1) ∧
      machine.tick.2.faults = outcome.2.toList.map fun fault => (process.pid, fault) := by
  intro outcome
  obtain ⟨unlearnt, core_tick, table, faults⟩ :=
    Machine.tick_last inStep.unlearnt inStep.table inStep.halted
  rw [← inStep.ip] at fetched
  rw [Process.visit_of_fetched inStep.ready fetched] at core_tick table faults
  dsimp only at core_tick table faults
  obtain ⟨agree, raised⟩ := inStep.agree.dispatch instruction
  rw [← agree.cpu] at table
  rw [← raised] at core_tick faults
  refine ⟨⟨unlearnt, table, inStep.halted, ?_, congrArg (· + 1) inStep.executed, ?_, ?_⟩, faults⟩
  · rw [Core.cpu_reported]
    rfl
  · have shares := (Core.shares_reported outcome.1 core.cpu.ip outcome.2).symm.trans
      (agree.toShares.trans (process.shares_reported _ outcome.2))
    rw [core_tick]
    exact ⟨shares.memory, shares.files, shares.policy⟩
  · rw [core_tick]
    show _ = (process.reported _ outcome.2).output
    rw [Core.output_reported, Process.output_reported, agree.output_eq]

/-- Unless the instruction halts, run and process stay in step where it cannot point elsewhere. -/
theorem InStep.tick_straight (inStep : InStep idle process machine core steps)
    {instruction : Instruction} (fetched : process.program[core.cpu.ip]? = some instruction)
    (straight : instruction.redirects = false)
    (running : (core.dispatch [] instruction).1.cpu.halted = false) :
    let outcome := core.dispatch [] instruction
    InStep idle (process.leave (machine.table.ticks + 1) outcome.1.cpu) machine.tick.1
      (outcome.1.reported core.cpu.ip outcome.2) (steps + 1) := by
  intro outcome
  have next := (core.passes_dispatch straight).resolve_left (by simp [running])
  refine { (inStep.tick_fetched fetched).1 with ready := ?_, running := ?_, ip := ?_ }
  · simp [Process.leave, outcome, running, inStep.ready]
  · rwa [Core.cpu_reported]
  · rw [Core.cpu_reported, next, ← inStep.ip]
    rfl

/-- The rest of a run and the ticks that remain come to the same. -/
theorem InStep.runFrom (inStep : InStep idle process machine core steps)
    (straight : Straight process.program) {remaining fuel : Nat}
    (length : process.program.length = core.cpu.ip + remaining) (enough : remaining ≤ fuel)
    (faults : Array Fault) :
    let ran := core.runFrom [] process.program.toArray fuel steps faults
    let ticked := machine.ticks (remaining + 1)
    ∃ (final : Process) (raised : List Fault),
      Mirrors idle final ticked.1 ran.1 ran.2.steps ∧
      final.pid = process.pid ∧ final.state = .halted ∧
      ran.2.faults.toList = faults.toList ++ raised ∧
      ticked.2.flatMap TickReport.faults = raised.map fun fault => (process.pid, fault) := by
  -- On the instructions that are left, not on fuel: a program that halts early leaves both over.
  induction remaining generalizing process machine core steps fuel faults with
  | zero =>
    have ended : process.program[core.cpu.ip]? = none := by
      rw [List.getElem?_eq_none_iff]
      omega
    obtain ⟨mirrors, none⟩ := inStep.tick_ended ended
    rw [Core.runFrom_of_ended inStep.running (by rwa [List.getElem?_toArray])]
    exact ⟨_, [], mirrors, rfl, rfl, by simp, by rw [Machine.faults_ticks_succ, none]; rfl⟩
  | succ remaining ih =>
    obtain ⟨fuel, rfl⟩ : ∃ left, fuel = left + 1 := ⟨fuel - 1, by omega⟩
    obtain ⟨instruction, fetched⟩ :
        ∃ instruction, process.program[core.cpu.ip]? = some instruction :=
      ⟨_, List.getElem?_eq_getElem (by omega)⟩
    have passes := straight instruction (List.mem_of_getElem? fetched)
    obtain ⟨mirrors, raised⟩ := inStep.tick_fetched fetched
    rw [Core.runFrom_turn inStep.running (by rwa [List.getElem?_toArray])]
    cases stopped : (core.dispatch [] instruction).1.cpu.halted with
    | true =>
      -- The run is over; the ticks that remain pass the process over.
      have halted : (process.leave (machine.table.ticks + 1)
          (core.dispatch [] instruction).1.cpu).state = .halted := by
        simp [Process.leave, stopped]
      obtain ⟨later, none⟩ := mirrors.ticks halted (remaining + 1)
      rw [Core.runFrom_of_halted (by rwa [Core.cpu_reported])]
      refine ⟨_, _, later, rfl, halted, toList_collect _ _, ?_⟩
      rw [Machine.faults_ticks_succ, raised, none, List.append_nil]
    | false =>
      have next := (core.passes_dispatch passes).resolve_left (by simp [stopped])
      obtain ⟨final, others, ended, pid, halted, collected, ticked⟩ :=
        ih (inStep.tick_straight fetched passes stopped) straight
          (by rw [Core.cpu_reported, next]; exact length.trans (by omega))
          (Nat.le_of_succ_le_succ enough) (collect faults (core.dispatch [] instruction).2)
      refine ⟨final, (core.dispatch [] instruction).2.toList ++ others, ended, pid, halted, ?_, ?_⟩
      · rw [toList_collect, List.append_assoc] at collected
        exact collected
      · rw [Machine.faults_ticks_succ, raised, ticked, List.map_append]
        rfl

/-! ## Both drivers -/

/-- Without a limit, and with a limit of the program's length, there is fuel for every instruction
once. -/
theorem Core.length_le_allowance {config : Config} {program : List Instruction}
    (fuel : ∀ fuel, config.fuel = some fuel → program.length ≤ fuel.toNat) :
    program.length ≤ allowance config program := by
  unfold allowance
  cases limit : config.fuel with
  | some limit' => exact fuel limit' limit
  | none => exact Nat.le_max_right _ _

namespace Machine

/-- A straight program comes to the same in the foreground of one machine and as a process of
another that has the same memory, files, output and policy, and no process that is ready. After one
tick more than the program is long the process is halted, with the registers of the foreground; it
has carried out as many instructions and raised the same faults; and memory, files and output are
the same. -/
theorem execute_eq_ticks (first second : Machine) (program : List Instruction)
    (unlearnt : first.handlers = []) (unlearnt' : second.handlers = [])
    (memory : first.core.memory = second.core.memory)
    (files : first.core.files = second.core.files)
    (output : first.core.output = second.core.output)
    (policy : first.core.config.unknownMnemonic = second.core.config.unknownMnemonic)
    (cpu : first.core.cpu = {})
    (halted : ∀ process ∈ second.table.processes, process.state = .halted)
    (straight : Straight program)
    (fuel : ∀ fuel, first.core.config.fuel = some fuel → program.length ≤ fuel.toNat) :
    let ran := first.execute program
    let spawned := second.spawn program
    let ticked := spawned.1.ticks (program.length + 1)
    ∃ process : Process,
      ticked.1.table.processes = second.table.processes ++ [process] ∧
      process.pid = spawned.2 ∧
      process.state = .halted ∧
      process.registers = ran.1.core.cpu.registers ∧
      process.executed = ran.2.steps ∧
      ticked.1.core.memory = ran.1.core.memory ∧
      ticked.1.core.files = ran.1.core.files ∧
      ticked.1.core.output = ran.1.core.output ∧
      ticked.2.flatMap TickReport.faults =
        ran.2.faults.toList.map fun fault => (spawned.2, fault) := by
  intro ran spawned ticked
  let process : Process :=
    { pid := spawned.2, program, createdAt := second.table.ticks }
  have started : InStep second.table.processes process spawned.1 (first.core.setIp 0) 0 :=
    { unlearnt := unlearnt'
      table := rfl
      halted
      registers := by simp [process, Core.setIp, cpu]
      executed := rfl
      shares := ⟨memory, files, policy⟩
      output
      ready := rfl
      running := by simp [Core.setIp, cpu]
      ip := rfl }
  have enough := Core.length_le_allowance fuel
  obtain ⟨final, raised, mirrors, pid, stopped, collected, faults⟩ :=
    started.runFrom straight (Nat.zero_add _).symm enough #[]
  have same : ran = (⟨(first.core.run [] program).1, first.table, first.handlers⟩,
      (first.core.run [] program).2) := by
    rw [← unlearnt]
    rfl
  rw [same]
  refine ⟨final, mirrors.table, pid, stopped, mirrors.registers, mirrors.executed,
    mirrors.shares.memory.symm, mirrors.shares.files.symm, mirrors.output.symm, faults.trans ?_⟩
  rw [List.nil_append] at collected
  rw [← collected]
  rfl

/-- A program that pushes, misses a file, meets an unknown mnemonic and divides by zero, with no
more fuel than its length and beside a process that is halted. -/
theorem execute_eq_ticks_faults :
    let config : Config := { fuel := some 6, unknownMnemonic := .warn }
    let first := Machine.ofConfig config
    let second := (Machine.ofConfig config).run [.spawn [.halt], .tick]
    let program : List Instruction :=
      [.load (.register .ax) 7, .push .ax, .readFile "f", .other "nop" none,
        .arithmetic .divide .ax 0, .print (.register .ax)]
    let raised : List Fault :=
      [.files (.notFound "f"), .unknownMnemonic "nop", .arithmetic .divisionByZero]
    Straight program ∧ (∀ process ∈ second.table.processes, process.state = .halted) ∧
    (first.execute program).2 = ⟨.halted, 5, raised.toArray⟩ ∧
    ((second.spawn program).1.ticks 7).2.flatMap TickReport.faults =
      raised.map (fun fault => (2, fault)) ∧
    ∃ process : Process,
      ((second.spawn program).1.ticks 7).1.table.processes =
        second.table.processes ++ [process] ∧
      process.state = .halted ∧ process.executed = 5 ∧
      process.registers = (first.execute program).1.core.cpu.registers := by
  intro config first second program raised
  have straight : Straight program := by decide
  have idle : ∀ process ∈ second.table.processes, process.state = .halted := by decide +kernel
  have report : (first.execute program).2 = ⟨.halted, 5, raised.toArray⟩ := by decide +kernel
  have pid : (second.spawn program).2 = 2 := by decide +kernel
  obtain ⟨process, table, -, halted, registers, executed, -, -, -, faults⟩ :=
    execute_eq_ticks first second program rfl rfl rfl rfl rfl rfl rfl idle straight
      fun fuel limit => by cases limit; decide
  have length : program.length + 1 = 7 := rfl
  rw [length] at table
  rw [report] at executed
  rw [length, report, pid] at faults
  exact ⟨straight, idle, report, faults, process, table, halted, executed, registers⟩

end Machine

end RegisterMachine
