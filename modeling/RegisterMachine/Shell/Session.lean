import RegisterMachine.Console
import RegisterMachine.SelfCheck
import RegisterMachine.Shell.Style

/-! # Sessions of the shell

A session answers lines by a machine. Answers go to the standard output, with errors and unknown
commands in colour; the records of the log go to the error output. A script shows each line after
the prompt; a conversation opens with the self-check and ends with the input or on request.
-/

namespace RegisterMachine.Shell

/-- What is written to the two outputs. -/
structure Output where
  standard : String := ""
  errors : String := ""
  deriving DecidableEq, Repr

def Output.append (first second : Output) : Output :=
  ⟨first.standard ++ second.standard, first.errors ++ second.errors⟩

instance : Append Output := ⟨Output.append⟩

/-- The prompt, which shows the working path. -/
def prompt (machine : Machine) : String := s!"simos:{machine.core.files.pathText}$"

def paintLine (colored : Bool) (line : String) : String :=
  if line.startsWith "Error:" || line.startsWith "fault:" then Style.red.paint colored line
  else if line.startsWith "Unknown command:" then Style.yellow.paint colored line
  else line

/-- Lines, each with its end. -/
def joinLines (lines : List String) : String := String.join (lines.map (· ++ "\n"))

def showAnswer (colored : Bool) (answer : Answer) : String :=
  (if answer.clear then clearScreen else "") ++ joinLines (answer.lines.map (paintLine colored))

def recordStyle : Log.Level → Style
  | .info => .dimmed
  | .warning => .yellow
  | .error => .red

def showRecords (colored : Bool) (records : List Log.Record) : String :=
  joinLines (records.map fun record => (recordStyle record.level).paint colored record.text)

def respond (colored : Bool) (machine : Machine) (line : String) : Machine × Output :=
  let (machine, answer) := Console.answer machine line
  let (records, machine) := machine.drainLog
  (machine, ⟨showAnswer colored answer, showRecords colored records⟩)

/-- What a timer's tick shows. -/
def respondToTick (colored : Bool) (machine : Machine) : Machine × Output :=
  let (machine, lines) := Console.tick machine
  let (records, machine) := machine.drainLog
  (machine, ⟨joinLines lines, showRecords colored records⟩)

/-! ## Scripts -/

/-- Answers the lines of a script, each shown after the prompt. -/
def scriptFrom (colored : Bool) (machine : Machine) (shown : Output) : List String → Output
  | [] => shown
  | line :: others =>
    let echo := s!"{Style.dimmed.paint colored (prompt machine)} {line}\n"
    let (machine, output) := respond colored machine line
    scriptFrom colored machine (shown ++ ⟨echo, ""⟩ ++ output) others

def script (colored : Bool) (machine : Machine) (source : String) : Output :=
  scriptFrom colored machine {} ((Text.lines source.toList).map String.ofList)

/-! ## Conversations -/

def greeting (colored : Bool) : String := Style.blue.paint colored SelfCheck.suite ++ "\n\n"

def invitation (colored : Bool) (machine : Machine) : String :=
  Style.boldGreen.paint colored (prompt machine) ++ " "

def isFarewell (line : String) : Bool :=
  let word := String.ofList (Text.trim line.toList)
  word == "exit" || word == "quit"

/-- Answers lines up to a farewell or the end of the input. -/
def conversationFrom (colored : Bool) (machine : Machine) (shown : Output) : List String → Output
  | [] => shown ++ ⟨invitation colored machine, ""⟩
  | line :: others =>
    let shown := shown ++ ⟨invitation colored machine, ""⟩
    if isFarewell line then shown
    else
      let (machine, output) := respond colored machine line
      conversationFrom colored machine (shown ++ output) others

/-- The lines of an input, of which the last need not be ended. -/
def inputLines (input : String) : List String :=
  (Text.lines input.toList).map String.ofList

def conversation (colored : Bool) (machine : Machine) (input : String) : Output :=
  conversationFrom colored machine ⟨greeting colored, ""⟩ (inputLines input)

end RegisterMachine.Shell
