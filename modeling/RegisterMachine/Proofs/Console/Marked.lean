import RegisterMachine.Console

/-! # Answers with the origin of their lines

Some lines of an answer have been printed by programs, the others are told by the console. The
console's functions are given here once more with that distinction; without it, the lines are the
same.
-/

namespace RegisterMachine.Console

/-- A line of an answer, which a program has printed or the console tells. -/
inductive Line where
  | printed (text : String)
  | told (text : String)
  deriving DecidableEq, Repr

namespace Line

def text : Line → String
  | printed text | told text => text

/-- The text of a line that a program has printed. -/
def printed? : Line → Option String
  | printed text => some text
  | told _ => none

variable (texts : List String)

@[simp] theorem text_printed : text ∘ printed = id := rfl

@[simp] theorem text_told : text ∘ told = id := rfl

theorem filterMap_printed : (texts.map printed).filterMap printed? = texts := by
  simp [List.filterMap_map, printed?, Function.comp_def]

theorem filterMap_told : (texts.map told).filterMap printed? = [] := by
  simp [List.filterMap_map, printed?, Function.comp_def]

end Line

/-- A command that succeeds, with the origin of its lines. -/
abbrev MarkedResult := Except CommandError (Machine × List Line)

def markedTicks (machine : Machine) : Nat → Machine × List Line
  | 0 => (machine, [])
  | count + 1 =>
    let (machine, report) := machine.tick
    let (output, machine) := machine.takeOutput
    let (machine, others) := markedTicks machine count
    (machine, output.map .printed ++ (tickLines report).map .told ++ others)

def tickCount (rest : List Char) : Except CommandError Nat :=
  match if rest.isEmpty then some 1 else Text.naturalBelow? UInt64.size rest with
  | none => .error (.usage "tick [count]")
  | some count => if tickLimit < count then .error (.tooManyTicks count) else .ok count

/-- Runs a program in the foreground, unless the processor is halted. -/
def markedRun (machine : Machine) (source : String) : MarkedResult :=
  if machine.core.cpu.halted then .ok (machine, [.told "cpu is halted; use `reset` first"])
  else
    match Program.ofText source with
    | .ok program =>
      let (machine, report) := machine.execute program
      let (output, machine) := machine.takeOutput
      let faults := report.faults.toList.map fun fault => s!"fault: {fault.message}"
      .ok (machine, output.map .printed ++ (faults ++ [outcomeLine report]).map .told)
    | .error error => .error (.program error)

/-- Carries out a command. Only ticks and runs take what programs have printed. -/
def markedPerform (machine : Machine) (verb : String) (rest : List Char) : MarkedResult :=
  match verb with
  | "tick" => (tickCount rest).map (markedTicks machine)
  | "run" => markedRun machine (String.ofList rest)
  | _ => (perform machine verb rest).map fun done => (done.1, done.2.map .told)

def markedAnswer (machine : Machine) (line : String) : Machine × List Line :=
  match Text.firstWord? line.toList with
  | none => (machine, [])
  | some (verb, rest) =>
    if verb = "clear".toList then (machine, [])
    else
      let (machine, lines) :=
        match markedPerform machine (String.ofList verb) rest with
        | .ok done => done
        | .error error => (machine, [.told s!"Error: {error.message}"])
      let (pending, machine) := machine.takeOutput
      (machine, pending.map .printed ++ lines)

/-- The outcome without the origin of its lines. -/
def unmark (done : Machine × List Line) : Machine × List String := (done.1, done.2.map Line.text)

/-! ## The lines without their origin -/

private theorem unmark_markedTicks (machine : Machine) (count : Nat) :
    unmark (markedTicks machine count) = ticks machine count := by
  induction count generalizing machine with
  | zero => rfl
  | succ count ih => simp [markedTicks, ticks, ← ih, unmark]

private theorem unmark_markedRun (machine : Machine) (source : String) :
    (markedRun machine source).map unmark = run machine source := by
  rw [markedRun, run]
  split
  · rfl
  · cases Program.ofText source with
    | error error => rfl
    | ok program => simp [Except.map, unmark, Function.comp_def, Line.text]

theorem tickCommand_eq (machine : Machine) (rest : List Char) :
    tickCommand machine rest = (tickCount rest).map (ticks machine) := by
  rw [tickCommand, tickCount]
  generalize (if rest.isEmpty then some 1 else Text.naturalBelow? UInt64.size rest) = asked
  cases asked with
  | none => rfl
  | some count =>
    dsimp only
    split <;> rfl

private theorem unmark_markedPerform (machine : Machine) (verb : String) (rest : List Char) :
    (markedPerform machine verb rest).map unmark = perform machine verb rest := by
  unfold markedPerform
  split
  · show _ = tickCommand machine rest
    rw [tickCommand_eq]
    cases tickCount rest with
    | error error => rfl
    | ok count => exact congrArg Except.ok (unmark_markedTicks machine count)
  · exact unmark_markedRun machine _
  · cases perform machine verb rest with
    | error error => rfl
    | ok done => simp [Except.map, unmark]

/-- The lines are those of the console's own answer. -/
theorem unmark_markedAnswer (machine : Machine) (line : String) :
    unmark (markedAnswer machine line) =
      ((answer machine line).1, (answer machine line).2.lines) := by
  rw [markedAnswer, answer]
  rcases Text.firstWord? line.toList with _ | ⟨verb, rest⟩
  · rfl
  · dsimp only
    rw [← unmark_markedPerform]
    split
    · rfl
    · cases markedPerform machine (String.ofList verb) rest with
      | error error => simp [Except.map, unmark, Line.text]
      | ok done => simp [Except.map, unmark]

end RegisterMachine.Console
