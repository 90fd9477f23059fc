import RegisterMachine.Machine.Run
import RegisterMachine.Machine.Schedule
import RegisterMachine.Machine.Snapshot
import RegisterMachine.Program

/-! # The console

A command is a verb and the trimmed text after it. Every command is answered with lines, and one
that fails with a line that says why and with the machine as it was. What programs have printed
since the last answer comes first. A blank command and the one that clears the screen leave it
waiting.
-/

namespace RegisterMachine

/-- Lines that answer a command, and whether the screen is cleared before them. -/
structure Answer where
  lines : List String := []
  clear : Bool := false
  deriving DecidableEq, Repr

def Answer.toJson (answer : Answer) : Json.Value :=
  .object [("lines", .array (answer.lines.map .text)), ("clear", .boolean answer.clear)]

namespace Console

def help : String :=
  "Supported: mkdir, cd, ls, write, read, rm, pwd, clear, spawn, ps, kill, tick, run, regs, " ++
    "mem, reset, help"

/-- The most ticks of one command. -/
def tickLimit : Nat := 10000

inductive CommandError where
  | files (error : Files.Error)
  | noSuchProcess (error : NoSuchProcess)
  | program (error : Program.ReadError)
  | bounds (fault : BoundsFault)
  | usage (form : String)
  | tooManyTicks (count : Nat)

def CommandError.message : CommandError → String
  | files error => error.message
  | noSuchProcess error => error.message
  | program error => error.message
  | bounds fault => fault.message
  | usage form => s!"usage: {form}"
  | tooManyTicks count => s!"tick count {count} exceeds the limit of {tickLimit}"

/-- A command that succeeds gives the machine after it with its lines. -/
abbrev Result := Except CommandError (Machine × List String)

def withFiles (machine : Machine) (changed : Except Files.Error Files) : Result :=
  match changed with
  | .ok files => .ok (machine.mapCore fun core => { core with files }, [])
  | .error error => .error (.files error)

/-- Writes a file. One pair of quotes around the content is dropped. -/
def write (machine : Machine) (rest : List Char) : Result :=
  match rest with
  | [] => .error (.usage "write <name> <content...>")
  | _ =>
    let content := Text.trimStart (Text.fromBlank rest)
    withFiles machine (machine.core.files.write (String.ofList (Text.beforeBlank rest))
      (String.ofList ((Listing.unquote? content).getD content)))

def read (machine : Machine) (name : String) : Result :=
  match machine.core.files.read name with
  | .ok content => .ok (machine, [s!"{name}: {content}"])
  | .error error => .error (.files error)

def list (machine : Machine) : Result :=
  match machine.core.files.list with
  | .ok items => .ok (machine, machine.core.files.pathText :: items.map Files.Item.text)
  | .error error => .error (.files error)

def spawn (machine : Machine) (source : String) : Result :=
  match Program.ofText source with
  | .ok program =>
    let (machine, pid) := machine.spawn program
    .ok (machine, [s!"spawned pid {pid}"])
  | .error error => .error (.program error)

def processLines (machine : Machine) : List String :=
  match machine.table.processes with
  | [] => ["No active processes"]
  | processes => processes.map Process.line

def kill (machine : Machine) (rest : List Char) : Result :=
  match Text.naturalBelow? UInt32.size rest with
  | none => .error (.usage "kill <pid>")
  | some pid =>
    match machine.kill pid with
    | .ok machine => .ok (machine, [s!"killed pid {pid}"])
    | .error error => .error (.noSuchProcess error)

def tickLines (report : TickReport) : List String :=
  s!"tick {report.tick}: {report.dispatched.length} dispatched" ::
    (report.faults.map fun (pid, fault) => s!"pid {pid}: {fault.message}") ++
    report.halted.map fun pid => s!"pid {pid} halted"

/-- Ticks a number of times. What each tick prints stands before its description. -/
def ticks (machine : Machine) : Nat → Machine × List String
  | 0 => (machine, [])
  | count + 1 =>
    let (machine, report) := machine.tick
    let (printed, machine) := machine.takeOutput
    let (machine, others) := ticks machine count
    (machine, printed ++ tickLines report ++ others)

/-- Ticks as often as the text asks, or once. -/
def tickCommand (machine : Machine) (rest : List Char) : Result :=
  match if rest.isEmpty then some 1 else Text.naturalBelow? UInt64.size rest with
  | none => .error (.usage "tick [count]")
  | some count =>
    if tickLimit < count then .error (.tooManyTicks count) else .ok (ticks machine count)

def outcomeLine (report : RunReport) : String :=
  match report.outcome with
  | .completed => s!"completed after {report.steps} steps"
  | .halted => s!"halted after {report.steps} steps"
  | .outOfFuel => s!"out of fuel after {report.steps} steps"

/-- Runs a program in the foreground, unless the processor is halted. -/
def run (machine : Machine) (source : String) : Result :=
  if machine.core.cpu.halted then .ok (machine, ["cpu is halted; use `reset` first"])
  else
    match Program.ofText source with
    | .ok program =>
      let (machine, report) := machine.execute program
      let (printed, machine) := machine.takeOutput
      .ok (machine, printed ++ (report.faults.toList.map fun fault => s!"fault: {fault.message}") ++
        [outcomeLine report])
    | .error error => .error (.program error)

def cell (machine : Machine) (rest : List Char) : Result :=
  match Text.word? rest with
  | none => .error (.usage "mem <addr>")
  | some address =>
    match machine.core.memory.read address with
    | .ok value => .ok (machine, [s!"Memory[{address}] = {value}"])
    | .error fault => .error (.bounds fault)

def perform (machine : Machine) (verb : String) (rest : List Char) : Result :=
  let argument := String.ofList rest
  let files := machine.core.files
  match verb with
  | "help" => .ok (machine, [help])
  | "mkdir" => withFiles machine (files.makeDirectory argument)
  | "cd" => withFiles machine (files.changeDirectory argument)
  | "rm" => withFiles machine (files.remove argument)
  | "read" => read machine argument
  | "write" => write machine rest
  | "ls" => list machine
  | "pwd" => .ok (machine, [files.pathText])
  | "spawn" => spawn machine argument
  | "ps" => .ok (machine, processLines machine)
  | "kill" => kill machine rest
  | "tick" => tickCommand machine rest
  | "run" => run machine argument
  | "regs" => .ok (machine, [machine.registersLine])
  | "mem" => cell machine rest
  | "reset" => .ok (machine.reset, ["cpu reset"])
  | _ => .ok (machine, [s!"Unknown command: {verb}"])

def answer (machine : Machine) (line : String) : Machine × Answer :=
  match Text.firstWord? line.toList with
  | none => (machine, {})
  | some (verb, rest) =>
    if verb = "clear".toList then (machine, { clear := true })
    else
      let (machine, lines) :=
        match perform machine (String.ofList verb) rest with
        | .ok done => done
        | .error error => (machine, [s!"Error: {error.message}"])
      let (pending, machine) := machine.takeOutput
      (machine, { lines := pending ++ lines })

/-- One tick, as a timer drives it, with what was printed. -/
def tick (machine : Machine) : Machine × List String :=
  let (machine, _) := machine.tick
  let (printed, machine) := machine.takeOutput
  (machine, printed)

end Console

end RegisterMachine
