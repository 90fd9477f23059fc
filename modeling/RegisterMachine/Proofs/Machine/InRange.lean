import RegisterMachine.Proofs.Machine.Bystanders
import RegisterMachine.Proofs.Machine.Footprint
import RegisterMachine.Proofs.Machine.ProcessTable

/-! # Checked histories

Runs and ticks with every operation checked. A run fetches only what lies within its program, a
process never points beyond the end of its own, and memory keeps its size; these are all that an
instruction needs in order not to slip. Whatever is spawned, killed, ticked and executed, a history
of programs that are not too long goes through without a slip and comes to the same machine.
-/

namespace RegisterMachine

namespace Core

variable {core : Core}

/-! ## Runs -/

def checkedRunFrom (program : Array Instruction) (fuel steps : Nat) (faults : Array Fault)
    (core : Core) : Except Slip (Core × RunReport) :=
  if core.cpu.halted then .ok (core, ⟨.halted, steps, faults⟩)
  else
    match program[core.cpu.ip]? with
    | none => .ok (core, ⟨.completed, steps, faults⟩)
    | some instruction =>
      match fuel with
      | 0 =>
        .ok (core.note .warning s!"out of fuel after {steps} instructions at ip={core.cpu.ip}",
          ⟨.outOfFuel, steps, faults⟩)
      | fuel + 1 => do
        let (stepped, fault) ← core.checkedDispatch instruction
        checkedRunFrom program fuel (steps + 1) (collect faults fault)
          (stepped.reported core.cpu.ip fault)

theorem size_dispatch (core : Core) (instruction : Instruction) :
    (core.dispatch [] instruction).1.memory.size = core.memory.size := by
  rw [memory_dispatch, size_step]

private theorem size_reported (core : Core) (fetched : Nat) (fault : Option Fault) :
    (core.reported fetched fault).memory.size = core.memory.size := by
  cases fault <;> rfl

private theorem size_runFrom (program : Array Instruction) (fuel steps : Nat) (faults : Array Fault)
    (core : Core) :
    (core.runFrom [] program fuel steps faults).1.memory.size = core.memory.size := by
  induction fuel, steps, faults, core using runFrom_induction [] program with
  | halted fuel steps faults core stopped => rw [runFrom_of_halted stopped]
  | ended fuel steps faults core running ended => rw [runFrom_of_ended running ended]
  | spent steps faults core instruction running fetched =>
    rw [runFrom_of_spent running fetched]
    rfl
  | turn fuel steps faults core instruction running fetched ih =>
    rw [runFrom_turn running fetched, ih, size_reported, size_dispatch]

/-- A run of a program that is not too long does not slip: it dispatches only what it fetches. -/
theorem checkedRunFrom_eq {program : Array Instruction} (short : program.size < 2 ^ 63)
    (small : core.memory.size ≤ Config.maximalCells) (fuel steps : Nat) (faults : Array Fault) :
    core.checkedRunFrom program fuel steps faults =
      .ok (core.runFrom [] program fuel steps faults) := by
  induction fuel, steps, faults, core using runFrom_induction [] program with
  | halted fuel steps faults core stopped =>
    rw [runFrom_of_halted stopped]
    cases fuel <;> rw [checkedRunFrom, if_pos stopped]
  | ended fuel steps faults core running ended =>
    rw [runFrom_of_ended running ended]
    cases fuel <;> simp [checkedRunFrom, running, ended]
  | spent steps faults core instruction running fetched =>
    rw [runFrom_of_spent running fetched]
    simp [checkedRunFrom, running, fetched]
  | turn fuel steps faults core instruction running fetched ih =>
    have inside := (Array.getElem?_eq_some_iff.mp fetched).1
    have room : core.cpu.ip + 1 < UInt64.size := by
      unfold UInt64.size
      omega
    have kept : ((core.dispatch [] instruction).1.reported core.cpu.ip
        (core.dispatch [] instruction).2).memory.size ≤ Config.maximalCells := by
      rwa [size_reported, size_dispatch]
    rw [runFrom_turn running fetched, ← ih kept, checkedRunFrom, if_neg (by simp [running])]
    simp only [fetched]
    rw [checkedDispatch_eq room small, ok_bind]

end Core

namespace Process

/-! ## Visits -/

/-- What is known of the pointer of a process. -/
structure Within (process : Process) : Prop where
  ip_le : process.ip ≤ process.program.length
  short : process.program.length < 2 ^ 63

def checkedVisit (tick : Nat) (core : Core) (process : Process) :
    Except Slip (Core × Process × Visit) :=
  if process.isReady then
    match process.program[process.ip]? with
    | none =>
      .ok (core.note .info s!"pid {process.pid} finished", { process with state := .halted },
        ⟨false, true, none⟩)
    | some instruction => do
      let (stepped, fault) ← (process.enter core).checkedDispatch instruction
      let ip ← checkedNextIp process.ip
      .ok (process.reported stepped fault, { process.leave tick stepped.cpu with ip },
        ⟨true, stepped.cpu.halted, fault⟩)
  else .ok (core, process, ⟨false, false, none⟩)

private theorem Visited.within {tick : Nat} {process visited : Process}
    (visit : Visited tick process visited) (within : process.Within) : visited.Within := by
  cases visit with
  | skipped => exact within
  | finished => exact ⟨within.ip_le, within.short⟩
  | dispatched ready inside => exact ⟨inside, within.short⟩

private theorem size_visit (tick : Nat) (core : Core) (process : Process) :
    (process.visit [] tick core).1.memory.size = core.memory.size := by
  cases state : process.state with
  | halted => rw [visit_of_halted state]
  | ready =>
    cases fetched : process.program[process.ip]? with
    | none =>
      rw [visit_of_ended state fetched]
      rfl
    | some instruction =>
      rw [visit_of_fetched state fetched]
      dsimp only
      rw [(shares_reported _ _ _).memory.symm, Core.size_dispatch]
      rfl

private theorem checkedVisit_eq {core : Core} {process : Process} (within : process.Within)
    (small : core.memory.size ≤ Config.maximalCells) (tick : Nat) :
    process.checkedVisit tick core = .ok (process.visit [] tick core) := by
  cases state : process.state with
  | halted =>
    rw [visit_of_halted state, checkedVisit, isReady_eq_false_iff.mpr state]
    rfl
  | ready =>
    rw [checkedVisit, if_pos (isReady_iff.mpr state)]
    cases fetched : process.program[process.ip]? with
    | none => rw [visit_of_ended state fetched]
    | some instruction =>
      have inside := (List.getElem?_eq_some_iff.mp fetched).1
      have short := within.short
      have room : process.ip + 1 < UInt64.size := by
        unfold UInt64.size
        omega
      have entered : (process.enter core).memory.size ≤ Config.maximalCells := small
      have room' : (process.enter core).cpu.ip + 1 < UInt64.size := room
      rw [visit_of_fetched state fetched]
      dsimp only
      rw [Core.checkedDispatch_eq room' entered, ok_bind, Core.checkedNextIp_eq room]
      rfl

end Process

namespace Core

def checkedSweep (tick : Nat) (core : Core) :
    List Process → Except Slip (Core × List Process × TickReport)
  | [] => .ok (core, [], { tick })
  | process :: others => do
    let (visited, left, visit) ← process.checkedVisit tick core
    let (swept, others, report) ← visited.checkedSweep tick others
    .ok (swept, left :: others, report.cons process.pid visit)

private theorem size_sweep (tick : Nat) (core : Core) (processes : List Process) :
    (core.sweep [] tick processes).1.memory.size = core.memory.size := by
  induction processes generalizing core with
  | nil => rfl
  | cons process others ih =>
    rw [sweep]
    exact (ih _).trans (process.size_visit tick core)

private theorem checkedSweep_eq {core : Core} {processes : List Process}
    (within : ∀ process ∈ processes, process.Within)
    (small : core.memory.size ≤ Config.maximalCells) (tick : Nat) :
    core.checkedSweep tick processes = .ok (core.sweep [] tick processes) := by
  induction processes generalizing core with
  | nil => rfl
  | cons process others ih =>
    rw [List.forall_mem_cons] at within
    have kept : (process.visit [] tick core).1.memory.size ≤ Config.maximalCells := by
      rwa [process.size_visit]
    rw [checkedSweep, Process.checkedVisit_eq within.1 small, ok_bind]
    dsimp only
    rw [ih within.2 kept, ok_bind]
    rfl

end Core

namespace Machine

/-! ## Histories -/

def checkedExecute (machine : Machine) (program : List Instruction) :
    Except Slip (Machine × RunReport) := do
  let bound := Core.allowance machine.core.config program
  let (core, report) ← (machine.core.setIp 0).checkedRunFrom program.toArray bound 0 #[]
  .ok ({ machine with core }, report)

def checkedTick (machine : Machine) : Except Slip (Machine × TickReport) := do
  let tick := machine.table.ticks + 1
  let (swept, processes, report) ← machine.core.checkedSweep tick machine.table.processes
  let core := { swept with cpu := machine.core.cpu }
  .ok ({ machine with core, table := { machine.table with processes, ticks := tick } }, report)

def checkedAct (machine : Machine) : Action → Except Slip Machine
  | .tick => Prod.fst <$> machine.checkedTick
  | .execute program => Prod.fst <$> machine.checkedExecute program
  | .dispatch instruction => do
    let (core, _) ← machine.core.checkedDispatch instruction
    .ok { machine with core }
  | action => .ok (machine.act action)

def checkedRun (machine : Machine) (actions : List Action) : Except Slip Machine :=
  actions.foldlM checkedAct machine

/-- Actions that bring no program which is too long and do not carry out an instruction outside of
any program. -/
def Action.Short : Action → Prop
  | spawn program | execute program => program.length < 2 ^ 63
  | dispatch _ => False
  | kill _ | tick | reset => True

structure InRange (machine : Machine) : Prop where
  unlearnt : machine.handlers = []
  small : machine.core.memory.size ≤ Config.maximalCells
  within : ∀ process ∈ machine.table.processes, process.Within

variable {machine : Machine}

private theorem InRange.execute (inRange : machine.InRange) {program : List Instruction}
    (short : program.length < 2 ^ 63) :
    machine.checkedExecute program = .ok (machine.execute program) ∧
      (machine.execute program).1.InRange := by
  obtain ⟨core, table, handlers⟩ := machine
  obtain ⟨unlearnt, small, within⟩ := inRange
  cases unlearnt
  have started : (core.setIp 0).memory.size ≤ Config.maximalCells := small
  refine ⟨?_, rfl, ?_, within⟩
  · rw [checkedExecute, Core.checkedRunFrom_eq short started]
    rfl
  · exact Nat.le_trans (Nat.le_of_eq (Core.size_runFrom ..)) small

private theorem InRange.tick (inRange : machine.InRange) :
    machine.checkedTick = .ok machine.tick ∧ machine.tick.1.InRange := by
  obtain ⟨core, table, handlers⟩ := machine
  obtain ⟨unlearnt, small, within⟩ := inRange
  cases unlearnt
  refine ⟨?_, rfl, ?_, ?_⟩
  · rw [checkedTick, Core.checkedSweep_eq within small]
    rfl
  · exact Nat.le_trans (Nat.le_of_eq (Core.size_sweep ..)) small
  · intro visited member
    have visits := Core.sweep_visited [] (table.ticks + 1) core table.processes
    obtain ⟨index, inside, rfl⟩ := List.getElem_of_mem member
    have earlier : index < table.processes.length := visits.length_eq ▸ inside
    exact (visits.get earlier inside).within (within _ (List.getElem_mem earlier))

private theorem InRange.act (inRange : machine.InRange) {action : Action} (short : action.Short) :
    machine.checkedAct action = .ok (machine.act action) ∧ (machine.act action).InRange := by
  cases action with
  | spawn program =>
    refine ⟨rfl, inRange.unlearnt, inRange.small, ?_⟩
    intro process member
    rcases List.mem_append.mp member with earlier | new
    · exact inRange.within process earlier
    · obtain rfl := List.mem_singleton.mp new
      exact ⟨Nat.zero_le _, short⟩
  | kill pid =>
    have abreast := abreast_kill inRange.unlearnt pid
    refine ⟨rfl, abreast.unlearnt', ?_, ?_⟩
    · rw [← abreast.shares.memory]
      exact inRange.small
    · rw [table_act_kill]
      intro process member
      obtain ⟨earlier, there, rfl⟩ := List.mem_map.mp member
      have within := inRange.within earlier there
      unfold Process.struck
      split
      · exact ⟨within.ip_le, within.short⟩
      · exact within
  | tick =>
    obtain ⟨same, kept⟩ := inRange.tick
    refine ⟨?_, kept⟩
    rw [checkedAct, same]
    rfl
  | execute program =>
    obtain ⟨same, kept⟩ := inRange.execute short
    refine ⟨?_, kept⟩
    rw [checkedAct, same]
    rfl
  | dispatch => contradiction
  | reset => exact ⟨rfl, inRange.unlearnt, inRange.small, inRange.within⟩

/-- Nothing slips in a history of programs that are not too long, on a machine that has learnt
nothing and whose memory is not too large, whatever stands in its registers. -/
theorem checkedRun_eq (machine : Machine) (unlearnt : machine.handlers = [])
    (small : machine.core.memory.size ≤ Config.maximalCells)
    (within : ∀ process ∈ machine.table.processes, process.Within) (actions : List Action)
    (short : ∀ action ∈ actions, action.Short) :
    machine.checkedRun actions = .ok (machine.run actions) := by
  have inRange : machine.InRange := ⟨unlearnt, small, within⟩
  clear unlearnt small within
  induction actions generalizing machine with
  | nil => rfl
  | cons action others ih =>
    rw [List.forall_mem_cons] at short
    obtain ⟨same, kept⟩ := inRange.act short.1
    rw [checkedRun, List.foldlM_cons, same, ok_bind]
    exact ih _ short.2 kept

/-- Registers at their limits, a stack pointer beyond memory, quotients rounded down or too great
and a process that ends. -/
theorem checkedRun_limits :
    let registers : Registers :=
      { ax := Int64.ofInt Word.least, bx := -7, stackPointer := 0xffffffffffffffff }
    let machine : Machine :=
      { core := { cpu := { registers, ip := 0xffffffffffffffff }, memory := .blank 2 } }
    let program : List Instruction :=
      [.arithmetic .divide .bx 2, .print (.register .bx), .print .stackPointer, .printStack,
        .load .stackPointer 2, .pop .bx, .push .bx, .peek, .arithmetic .divide .ax (-1)]
    let actions : List Action := [.execute program, .spawn [.push .ax], .tick, .kill 1, .tick]
    machine.checkedRun actions = .ok (machine.run actions) ∧
      (machine.run actions).core.output =
        #["BX: -4", "SP: -1", "SP points to: 18446744073709551615", "Stack[0]: 0", "Stack[1]: 0",
          "Stack top: 0"] ∧
      (machine.execute program).2.faults = #[.arithmetic .overflow] := by
  intro registers machine program actions
  refine ⟨checkedRun_eq machine rfl (by decide) (List.forall_mem_nil _) actions ?_, ?_, ?_⟩
  · simp [actions, Action.Short, program]
  · decide +kernel
  · decide +kernel

end Machine

end RegisterMachine
