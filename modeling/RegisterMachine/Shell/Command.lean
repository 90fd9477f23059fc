import RegisterMachine.LivingSpecification
import RegisterMachine.Shell.Folder
import RegisterMachine.Shell.Options
import RegisterMachine.Shell.Session

/-! # Commands

Three commands share the machine: the shell, the self-check and the living specification. Each ends
with a code: zero for success, one for failure, two for arguments that are refused.
-/

namespace RegisterMachine.Shell

/-- What a command wrote and the code that it ended with. -/
structure Result where
  code : Nat := 0
  output : Output := {}
  deriving DecidableEq, Repr

def Result.failure (code : Nat) (message : String) : Result :=
  ⟨code, ⟨"", s!"Error: {message}\n"⟩⟩

def version : String := "shell-cli 0.1.0"

/-- Reads a file that the options name, if they name one. -/
def readNamed [Monad m] (readText : String → m (Except FileError String)) (purpose : String)
    (path : Option String) : m (Except String (Option String)) := do
  match path with
  | none => return .ok none
  | some path =>
    match ← readText path with
    | .ok source => return .ok (some source)
    | .error error =>
      return .error s!"Failed to read {purpose} {Text.quoted path}: {error.message}"

/-- A fresh machine as the options ask for it, with the text of their script. -/
def prepare [Monad m] (readText : String → m (Except FileError String)) (options : Options) :
    m (Except String (Machine × Option String)) := do
  match ← readNamed readText "config" options.config with
  | .error message => return .error message
  | .ok source =>
    match options.configure source with
    | .error error => return .error error.message
    | .ok config =>
      match ← readNamed readText "script" options.script with
      | .error message => return .error message
      | .ok script => return .ok (Machine.ofConfig config, script)

/-- A session of the shell from its arguments, the files that it can read and its whole input. No
timer runs in it. -/
def run (arguments : List String) (folder : Folder) (input : String) (colored : Bool) : Result :=
  match Request.ofArguments arguments with
  | .error error => .failure 2 error.message
  | .ok .version => { output := { standard := s!"{version}\n" } }
  | .ok (.session options) =>
    match (prepare folder.readText options).run input with
    | (.error message, _) => .failure 1 message
    | (.ok (machine, some source), _) => { output := script colored machine source }
    | (.ok (machine, none), unread) => { output := conversation colored machine unread }

def selfCheck : Result :=
  let (answer, records, value) := SelfCheck.consoleRun
  { output :=
      { standard := joinLines answer.lines ++ s!"CLI Result: {value}\n"
        errors := joinLines (records.map Log.Record.text) } }

/-- A text filled up with spaces to a width. -/
def pad (width : Nat) (text : String) : String :=
  String.ofList (text.toList ++ List.replicate (width - text.length) ' ')

def showCheck (colored : Bool) (check : String × LivingSpecification.Verdict) : String :=
  let name := pad 30 check.1
  match check.2 with
  | .ok _ =>
    let word := Style.green.paint colored "PASS"
    s!"TEST: {name} ... {word}\n"
  | .error message =>
    let word := Style.red.paint colored "FAIL"
    s!"TEST: {name} ... {word}\n  -> {message}\n"

def livingSpecification (colored : Bool) : Result :=
  let checks := LivingSpecification.checks
  let failed := checks.countP fun check => check.2 matches .error _
  let passed := checks.length - failed
  let rule := String.ofList (List.replicate 80 '-')
  let closing :=
    if failed = 0 then Style.boldGreen.paint colored "ALL SYSTEMS NOMINAL." ++ "\n" else ""
  { code := if failed = 0 then 0 else 1
    output :=
      { standard := LivingSpecification.manifesto ++ "\n" ++
          String.join (checks.map (showCheck colored)) ++
          s!"\n{rule}\n{passed} passed, {failed} failed\n" ++ closing } }

end RegisterMachine.Shell
