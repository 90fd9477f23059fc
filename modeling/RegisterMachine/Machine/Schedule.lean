import RegisterMachine.Machine.Basic

/-! # Ticks

A tick visits every process in the order of the table. A ready process carries out the instruction
at its own pointer, with its own registers in the processor, and then points to the following one,
wherever the instruction jumped to; one whose program has ended halts instead. Memory, files, output
and log are shared, and the foreground's processor is put back at the end.
-/

namespace RegisterMachine

/-- What a tick came to, in the order of the table. -/
structure TickReport where
  tick : Nat
  dispatched : List Nat := []
  halted : List Nat := []
  faults : List (Nat × Fault) := []
  deriving DecidableEq, Repr

namespace Process

structure Visit where
  dispatched : Bool
  halted : Bool
  fault : Option Fault
  deriving DecidableEq, Repr

/-- Puts a process's registers and pointer into the processor. -/
def enter (process : Process) (core : Core) : Core :=
  { core with cpu := { registers := process.registers, ip := process.ip, halted := false } }

/-- The process after it has carried out an instruction. -/
def leave (process : Process) (tick : Nat) (cpu : Cpu) : Process :=
  { process with
    registers := cpu.registers
    ip := process.ip + 1
    executed := process.executed + 1
    lastTick := some tick
    state := if cpu.halted then .halted else process.state }

/-- The core after an instruction of a process, with its fault reported. -/
def reported (process : Process) (core : Core) : Option Fault → Core
  | some fault => core.report (some process.pid) process.ip fault
  | none => core

/-- Visits a process in a given tick. -/
def visit (handlers : Handlers) (tick : Nat) (core : Core) (process : Process) :
    Core × Process × Visit :=
  if process.isReady then
    match process.program[process.ip]? with
    | none =>
      (core.note .info s!"pid {process.pid} finished", { process with state := .halted },
        ⟨false, true, none⟩)
    | some instruction =>
      let (core, fault) := (process.enter core).dispatch handlers instruction
      let core := process.reported core fault
      let cpu := core.cpu
      (core, process.leave tick cpu, ⟨true, cpu.halted, fault⟩)
  else (core, process, ⟨false, false, none⟩)

end Process

/-- Puts a visit in front of what the later visits came to. -/
def TickReport.cons (pid : Nat) (visit : Process.Visit) (report : TickReport) : TickReport :=
  { report with
    dispatched := if visit.dispatched then pid :: report.dispatched else report.dispatched
    halted := if visit.halted then pid :: report.halted else report.halted
    faults := match visit.fault with
      | some fault => (pid, fault) :: report.faults
      | none => report.faults }

/-- Visits processes in order. -/
def Core.sweep (handlers : Handlers) (tick : Nat) (core : Core) :
    List Process → Core × List Process × TickReport
  | [] => (core, [], { tick })
  | process :: others =>
    let pid := process.pid
    let (core, process, visit) := process.visit handlers tick core
    let (core, others, report) := core.sweep handlers tick others
    (core, process :: others, report.cons pid visit)

namespace Machine

/-- One tick of every process. -/
def tick (machine : Machine) : Machine × TickReport :=
  match machine with
  | ⟨core, table, handlers⟩ =>
    let tick := table.ticks + 1
    let foreground := core.cpu
    let (core, processes, report) := core.sweep handlers tick table.processes
    (⟨{ core with cpu := foreground }, { table with processes, ticks := tick }, handlers⟩, report)

/-- Ticks a number of times, with the reports in order. -/
def ticks (machine : Machine) : Nat → Machine × List TickReport
  | 0 => (machine, [])
  | count + 1 =>
    let (machine, report) := machine.tick
    let (machine, reports) := machine.ticks count
    (machine, report :: reports)

def spawn (machine : Machine) (program : List Instruction) : Machine × Nat :=
  let (table, pid) := machine.table.spawn program
  ({ machine with table }.mapCore fun core =>
    core.note .info s!"spawned pid {pid} ({program.length} instructions)", pid)

def kill (machine : Machine) (pid : Nat) : Except NoSuchProcess Machine :=
  (machine.table.kill pid).map fun table =>
    { machine with table }.mapCore fun core => core.note .info s!"killed pid {pid}"

end Machine

end RegisterMachine
