import RegisterMachine.Console
import RegisterMachine.Proofs.Files.Run

/-! # File operations of commands and instructions

Six instructions and six commands are operations on the file tree. They differ only in what they
make of the outcome: an instruction prints what the operation has to say and raises its error as a
fault, and a command tells the one and answers with the other.
-/

namespace RegisterMachine

namespace Files

/-- The lines that tell what an operation has to say. -/
def told (files : Files) : Operation → Answer → List String
  | .read name, .content content => [s!"{name}: {content}"]
  | .list, .items items => files.pathText :: items.map Item.text
  | _, _ => []

/-- The instruction that is an operation. -/
def Operation.instruction : Operation → Instruction
  | makeDirectory name => .makeDirectory name
  | changeDirectory name => .changeDirectory name
  | list => .listDirectory
  | write name content => .writeFile name content
  | read name => .readFile name
  | remove name => .remove name

end Files

open Files

private theorem Core.withFiles_eq (core : Core) (outcome : Except Files.Error Files) :
    core.withFiles outcome =
      match outcome.map fun files => (files, Answer.done) with
      | .ok (files, _) => { core with files }.next
      | .error error => core.fail (.files error) := by
  cases outcome <;> rfl

/-- An instruction that is a file operation either takes over the tree and prints, or raises the
operation's error. -/
theorem Core.step_instruction (core : Core) (operation : Operation) :
    core.step operation.instruction =
      match core.files.perform operation with
      | .ok (files, answer) => ({ core with files }.emitAll (core.files.told operation answer)).next
      | .error error => core.fail (.files error) := by
  cases operation with
  | makeDirectory name | changeDirectory name | write name content | remove name =>
    exact core.withFiles_eq _
  | list =>
    show core.listDirectory = _
    rw [listDirectory, Files.perform]
    cases core.files.list <;> rfl
  | read name =>
    show core.readFile name = _
    rw [readFile, Files.perform]
    cases core.files.read name <;> rfl

/-- The machine with other lines waiting. -/
def Machine.withOutput (machine : Machine) (output : Array String) : Machine :=
  { machine with core := { machine.core with output } }

namespace Console

/-- The file operation that a command asks for. -/
def fileOperation? (verb : String) (rest : List Char) : Option Operation :=
  match verb with
  | "mkdir" => some (.makeDirectory (String.ofList rest))
  | "cd" => some (.changeDirectory (String.ofList rest))
  | "rm" => some (.remove (String.ofList rest))
  | "read" => some (.read (String.ofList rest))
  | "ls" => some .list
  | "write" =>
    match rest with
    | [] => none
    | _ =>
      let content := Text.trimStart (Text.fromBlank rest)
      some (.write (String.ofList (Text.beforeBlank rest))
        (String.ofList ((Listing.unquote? content).getD content)))
  | _ => none

private theorem withFiles_eq (machine : Machine) (outcome : Except Files.Error Files) :
    withFiles machine outcome =
      match outcome.map fun files => (files, Answer.done) with
      | .ok (files, _) => .ok (machine.mapCore fun core => { core with files }, [])
      | .error error => .error (.files error) := by
  cases outcome <;> rfl

/-- A command that asks for a file operation either takes over the tree and tells, or fails with the
operation's error. -/
theorem perform_of_fileOperation (machine : Machine) {verb : String} {rest : List Char}
    {operation : Operation} (asked : fileOperation? verb rest = some operation) :
    perform machine verb rest =
      match machine.core.files.perform operation with
      | .ok (files, answer) =>
        .ok (machine.mapCore fun core => { core with files },
          machine.core.files.told operation answer)
      | .error error => .error (.files error) := by
  unfold fileOperation? at asked
  split at asked
  case h_1 | h_2 | h_3 =>
    cases asked
    exact withFiles_eq machine _
  case h_4 =>
    cases asked
    show read machine _ = _
    rw [read, Files.perform]
    cases machine.core.files.read (String.ofList rest) <;> rfl
  case h_5 =>
    cases asked
    show list machine = _
    rw [list, Files.perform]
    cases machine.core.files.list <;> rfl
  case h_6 =>
    cases rest with
    | nil => contradiction
    | cons first rest =>
      cases asked
      exact withFiles_eq machine _
  case h_7 => contradiction

/-! ## Answers -/

/-- What an answer makes of a command: an error is told, and the machine is as it was. -/
def reply (machine : Machine) : Result → Machine × List String
  | .ok done => done
  | .error error => (machine, [s!"Error: {error.message}"])

/-- A line is answered with the lines that wait after its command and then with what the command
tells. -/
theorem answer_eq {machine : Machine} {line verb : String} {rest : List Char}
    (start : Text.firstWord? line.toList = some (verb.toList, rest)) (other : verb ≠ "clear") :
    answer machine line =
      let done := reply machine (perform machine verb rest)
      (done.1.withOutput #[], { lines := done.1.core.output.toList ++ done.2 }) := by
  rw [answer, start]
  dsimp only
  rw [if_neg (mt String.toList_inj.mp other), String.ofList_toList]
  cases perform machine verb rest <;> rfl

end Console

end RegisterMachine
