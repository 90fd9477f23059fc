import RegisterMachine.Shell.Command

/-! # The commands as programs

One executable serves the three commands and is told apart by its file name: `simos-core` runs the
self-check, `living-spec` the living specification and every other name the shell. What is answered
and how it looks is decided by `RegisterMachine.Shell`; here it is read and written.
-/

namespace RegisterMachine.Terminal

/-- Whether to use colours. The environment can force or forbid them; a terminal has them else. -/
def usesColors : IO Bool := do
  if let some force ← IO.getEnv "CLICOLOR_FORCE" then
    if force != "0" then return true
  if (← IO.getEnv "NO_COLOR").isSome then return false
  if (← IO.getEnv "CLICOLOR") == some "0" then return false
  (← IO.getStdout).isTty

def write (output : Shell.Output) : IO Unit := do
  IO.print output.standard
  (← IO.getStdout).flush
  IO.eprint output.errors

/-- What keeps a file from being read. A system's error code may come with its sign turned. -/
def fileError : IO.Error → Shell.FileError
  | .noFileOrDirectory .. => .notFound
  | .inappropriateType _ code _ => if code = 21 then .isADirectory else .notADirectory
  | .permissionDenied .. => .permissionDenied
  | .invalidArgument _ code reason =>
    if code = 36 ∨ code = -36 then .nameTooLong else .other reason
  | .userError _ => .notText
  | error => .other error.toString

/-- Reads a file, or says what keeps it from being read. -/
def readText (path : String) : IO (Except Shell.FileError String) := do
  return (← (IO.FS.readFile path).toBaseIO).mapError fileError

/-- Ticks the machine on its period while a process is ready, until told to stop. -/
def keepTime (colored : Bool) (shared : IO.Ref Machine) (stopped : IO.Ref Bool) : IO Unit := do
  let period := (← shared.get).core.config.tickPeriod
  while !(← stopped.get) do
    IO.sleep (min period 0xffffffff).toUInt32
    if (← shared.get).table.readyCount != 0 then
      write (← shared.modifyGet fun machine =>
        let (machine, output) := Shell.respondToTick colored machine
        (output, machine))

/-- Answers the lines that are typed until the user leaves. -/
def converse (colored : Bool) (shared : IO.Ref Machine) : IO Unit := do
  let input ← IO.getStdin
  repeat
    write ⟨Shell.invitation colored (← shared.get), ""⟩
    let line ← input.getLine
    if line.isEmpty || Shell.isFarewell line then break
    write (← shared.modifyGet fun machine =>
      let (machine, output) := Shell.respond colored machine line
      (output, machine))

/-- A conversation with the machine, which a timer drives unless there is to be none. -/
def serve (colored noTimer : Bool) (machine : Machine) : IO Unit := do
  write ⟨Shell.greeting colored, ""⟩
  let shared ← IO.mkRef machine
  let stopped ← IO.mkRef false
  if noTimer then converse colored shared
  else
    let timer ← IO.asTask (keepTime colored shared stopped) .dedicated
    converse colored shared
    stopped.set true
    IO.ofExcept timer.get

/-- Shows the result of a command and gives its code. -/
def finish (result : Shell.Result) : IO UInt32 := do
  write result.output
  return result.code.toUInt32

def shell (colored : Bool) (arguments : List String) : IO UInt32 := do
  match Shell.Request.ofArguments arguments with
  | .ok (.session options) =>
    match ← Shell.prepare readText options with
    | .ok (machine, none) =>
      serve colored options.noTimer machine
      return 0
    | .ok (machine, some source) => finish { output := Shell.script colored machine source }
    | .error message => finish (.failure 1 message)
  | .ok .version => finish { output := { standard := s!"{Shell.version}\n" } }
  | .error error => finish (.failure 2 error.message)

end RegisterMachine.Terminal

/-- Runs the command that the executable's name asks for. -/
def main (arguments : List String) : IO UInt32 := do
  let colored ← RegisterMachine.Terminal.usesColors
  match (← IO.appPath).fileStem with
  | some "simos-core" => RegisterMachine.Terminal.finish RegisterMachine.Shell.selfCheck
  | some "living-spec" =>
    RegisterMachine.Terminal.finish (RegisterMachine.Shell.livingSpecification colored)
  | _ => RegisterMachine.Terminal.shell colored arguments
