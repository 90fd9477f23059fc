import RegisterMachine.Json.Value
import RegisterMachine.Machine.Core

/-! # Processes

A process is a program with registers and an instruction pointer of its own. The table keeps every
process ever spawned, in the order of spawning, and numbers them from one. A process is ready until
it halts, and then stays halted.
-/

namespace RegisterMachine

namespace Process

inductive State where
  | ready
  | halted
  deriving DecidableEq, Repr

def State.name : State → String
  | ready => "ready"
  | halted => "halted"

end Process

/-- A program that runs one instruction a tick. -/
structure Process where
  pid : Nat
  program : List Instruction
  ip : Nat := 0
  state : Process.State := .ready
  registers : Registers := {}
  /-- The tick count when the process was spawned. -/
  createdAt : Nat
  executed : Nat := 0
  lastTick : Option Nat := none
  deriving DecidableEq, Repr

namespace Process

def line (process : Process) : String :=
  s!"PID: {process.pid}, State: {process.state.name}, IP: {process.ip}"

/-- The JSON form of what is known of a process from outside. -/
def toJson (process : Process) : Json.Value :=
  .object
    [("pid", .integer process.pid), ("state", .text process.state.name),
      ("ip", .integer process.ip), ("executed", .integer process.executed),
      ("created_at", .integer process.createdAt), ("program_len", .integer process.program.length)]

def isReady (process : Process) : Bool := process.state == .ready

end Process

/-- Every process ever spawned, with the number of ticks so far. -/
structure ProcessTable where
  processes : List Process := []
  lastPid : Nat := 0
  ticks : Nat := 0
  deriving DecidableEq, Repr

/-- No process has the number. -/
structure NoSuchProcess where
  pid : Nat
  deriving DecidableEq, Repr

def NoSuchProcess.message (error : NoSuchProcess) : String := s!"no such process: {error.pid}"

namespace ProcessTable

/-- Adds a process and gives its number. -/
def spawn (table : ProcessTable) (program : List Instruction) : ProcessTable × Nat :=
  let pid := table.lastPid + 1
  ({ table with
      processes := table.processes ++ [{ pid, program, createdAt := table.ticks }]
      lastPid := pid }, pid)

def get? (table : ProcessTable) (pid : Nat) : Option Process :=
  table.processes.find? fun process => process.pid == pid

def kill (table : ProcessTable) (pid : Nat) : Except NoSuchProcess ProcessTable :=
  match table.get? pid with
  | some _ =>
    .ok { table with
      processes := table.processes.map fun process =>
        if process.pid = pid then { process with state := .halted } else process }
  | none => .error ⟨pid⟩

def readyCount (table : ProcessTable) : Nat := table.processes.countP Process.isReady

end ProcessTable

end RegisterMachine
