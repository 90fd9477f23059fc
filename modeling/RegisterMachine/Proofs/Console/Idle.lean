import RegisterMachine.Proofs.Console.Commands
import RegisterMachine.Proofs.Console.InPlace
import RegisterMachine.Proofs.Console.Output

/-! # Lines that change nothing

A line that fails, that only shows something or that names no verb of the console leaves the machine
as it was, except that the answer takes the lines that have been waiting. Why a line fails is told
from the machine and the line alone, before anything is done.
-/

namespace RegisterMachine

namespace Console

variable {machine : Machine} {verb : String} {rest : List Char} {line : String}

/-! ## Lines that change nothing -/

def verbs : List String :=
  ["mkdir", "cd", "ls", "write", "read", "rm", "pwd", "clear", "spawn", "ps", "kill", "tick", "run",
    "regs", "mem", "reset", "help"]

/-- The verbs of the commands that only show something. -/
def readVerbs : List String := ["help", "read", "ls", "pwd", "ps", "regs", "mem"]

/-- A line after which nothing has changed but the lines that wait. -/
inductive Idle (machine : Machine) (line : String) : Prop
  | quiet (quiet : Quiet line)
  | shows {verb : String} {rest : List Char}
      (start : Text.firstWord? line.toList = some (verb.toList, rest)) (shown : verb ∈ readVerbs)
  | unknown {verb : String} {rest : List Char}
      (start : Text.firstWord? line.toList = some (verb.toList, rest)) (absent : verb ∉ verbs)
  | halted {rest : List Char} (start : Text.firstWord? line.toList = some ("run".toList, rest))
      (stopped : machine.core.cpu.halted = true)
  | fails {verb : String} {rest : List Char} {error : CommandError}
      (start : Text.firstWord? line.toList = some (verb.toList, rest))
      (fails : Fails machine verb rest error)

private theorem reply_of_shown (rest : List Char) (shown : verb ∈ readVerbs) :
    ∃ lines, reply machine (perform machine verb rest) = (machine, lines) := by
  simp only [readVerbs, List.mem_cons, List.not_mem_nil, or_false] at shown
  rcases shown with rfl | rfl | rfl | rfl | rfl | rfl | rfl
  · exact ⟨_, rfl⟩
  · show ∃ lines, reply machine (read machine _) = (machine, lines)
    rw [read]
    split <;> exact ⟨_, rfl⟩
  · show ∃ lines, reply machine (list machine) = (machine, lines)
    rw [list]
    split <;> exact ⟨_, rfl⟩
  · exact ⟨_, rfl⟩
  · exact ⟨_, rfl⟩
  · exact ⟨_, rfl⟩
  · show ∃ lines, reply machine (cell machine rest) = (machine, lines)
    rw [cell]
    split
    · exact ⟨_, rfl⟩
    · split <;> exact ⟨_, rfl⟩

private theorem perform_of_unknown (rest : List Char) (absent : verb ∉ verbs) :
    perform machine verb rest = .ok (machine, [s!"Unknown command: {verb}"]) := by
  simp only [verbs, List.mem_cons, List.not_mem_nil, or_false, not_or] at absent
  unfold perform
  dsimp only
  split <;> first | rfl | simp at absent

private theorem perform_of_halted (rest : List Char) (stopped : machine.core.cpu.halted = true) :
    perform machine "run" rest = .ok (machine, ["cpu is halted; use `reset` first"]) := by
  show run machine _ = _
  rw [run, if_pos stopped]

/-- A line that takes along what waits has a command that leaves the machine as it is. -/
theorem Idle.exists_reply (idle : Idle machine line) (loud : ¬Quiet line) :
    ∃ verb rest lines, Text.firstWord? line.toList = some (verb.toList, rest) ∧ verb ≠ "clear" ∧
      reply machine (perform machine verb rest) = (machine, lines) := by
  have other {verb : String} {rest : List Char}
      (start : Text.firstWord? line.toList = some (verb.toList, rest)) : verb ≠ "clear" := by
    rintro rfl
    exact loud (.inr (by rw [Text.words_of_firstWord? start, List.head?_cons]))
  cases idle with
  | quiet quiet => exact absurd quiet loud
  | shows start shown =>
    obtain ⟨lines, replied⟩ := reply_of_shown _ shown
    exact ⟨_, _, lines, start, other start, replied⟩
  | unknown start absent =>
    exact ⟨_, _, _, start, other start, congrArg (reply machine) (perform_of_unknown _ absent)⟩
  | halted start stopped =>
    exact ⟨_, _, _, start, other start, congrArg (reply machine) (perform_of_halted _ stopped)⟩
  | fails start fails =>
    exact ⟨_, _, _, start, other start, congrArg (reply machine) (perform_of_fails fails)⟩

/-- A command that leaves the machine as it is takes what waits along, and nothing else. -/
theorem answer_of_reply {lines : List String}
    (start : Text.firstWord? line.toList = some (verb.toList, rest)) (other : verb ≠ "clear")
    (replied : reply machine (perform machine verb rest) = (machine, lines)) :
    answer machine line =
      (machine.withOutput #[], { lines := machine.core.output.toList ++ lines }) := by
  rw [answer_eq start other, replied]

private theorem answer_of_quiet (quiet : Quiet line) :
    (answer machine line).1 = machine ∧ (answer machine line).2.lines = [] := by
  have same := unmark_markedAnswer machine line
  rw [(markedAnswer_of_quiet machine quiet).1] at same
  exact ⟨(congrArg Prod.fst same).symm, (congrArg Prod.snd same).symm⟩

private theorem Idle.answer_eq (idle : Idle machine line) :
    (answer machine line).1 = machine.withOutput (answer machine line).1.core.output := by
  by_cases quiet : Quiet line
  · rw [(answer_of_quiet quiet).1]
    rfl
  · obtain ⟨verb, rest, lines, start, other, replied⟩ := idle.exists_reply quiet
    rw [answer_of_reply start other replied]
    rfl

/-- A line that fails, only shows something, is blank, clears the screen, has no verb of the console
or asks the halted processor to run leaves everything but the waiting lines as it was. A line that
is blank or clears the screen leaves these too; any other puts them in front of its answer, which is
the error where the line fails. It is the same where a command's effects are made in place, one
after the other. -/
theorem answer_of_idle (machine : Machine) (line : String) :
    let answered := answer machine line
    (converse line).run machine = answered.swap ∧
    (∀ verb rest error,
      perform machine verb rest = .error error ↔ Fails machine verb rest error) ∧
    (∀ verb rest error, Text.firstWord? line.toList = some (verb.toList, rest) →
      Fails machine verb rest error →
      answered.2.lines = machine.core.output.toList ++ [s!"Error: {error.message}"]) ∧
    (Idle machine line →
      answered.1 = machine.withOutput answered.1.core.output ∧
      (Quiet line → answered.2.lines = [] ∧ answered.1.core.output = machine.core.output) ∧
      (¬Quiet line → (∃ told, answered.2.lines = machine.core.output.toList ++ told) ∧
        answered.1.core.output = #[])) := by
  intro answered
  refine ⟨converse_eq line machine, ?_, ?_, ?_⟩
  · intro verb rest error
    exact ⟨fails_of_perform, perform_of_fails⟩
  · intro verb rest error start fails
    have other : verb ≠ "clear" := by
      rintro rfl
      nomatch perform_of_fails fails
    have replied := congrArg (reply machine) (perform_of_fails fails)
    exact congrArg (·.2.lines) (answer_of_reply start other replied)
  · intro idle
    refine ⟨idle.answer_eq, ?_, ?_⟩
    · intro quiet
      obtain ⟨same, silent⟩ := answer_of_quiet quiet
      exact ⟨silent, congrArg (·.core.output) same⟩
    · intro loud
      obtain ⟨verb, rest, lines, start, other, replied⟩ := idle.exists_reply loud
      have taken := answer_of_reply start other replied
      exact ⟨⟨lines, congrArg (·.2.lines) taken⟩, congrArg (·.1.core.output) taken⟩

/-- An operation that the tree refuses, a cell beyond memory, a process that is not there, more
ticks than there may be and a verb that is none, while a line waits. -/
theorem answer_of_idle_samples :
    let machine := (Machine.ofConfig { memoryCells := 2 }).withOutput #["left"]
    (∀ line ∈ ["cd nowhere", "mem 2", "kill 1", "tick 10001", "boo"],
      Idle machine line ∧ (answer machine line).1 = machine.withOutput #[]) ∧
    (answer machine "mem 2").2.lines =
      ["left", "Error: memory read out of bounds: 2 (size 2)"] := by
  intro machine
  have idle : ∀ line ∈ ["cd nowhere", "mem 2", "kill 1", "tick 10001", "boo"],
      Idle machine line := by
    simp only [List.forall_mem_cons]
    refine ⟨?_, ?_, ?_, ?_, ?_, List.forall_mem_nil _⟩
    · have lost : machine.core.files.perform (.changeDirectory "nowhere") =
          .error (.notFound "nowhere") := rfl
      exact .fails (show _ = some ("cd".toList, "nowhere".toList) by decide) (.files rfl lost)
    · exact .fails (show _ = some ("mem".toList, "2".toList) by decide)
        (.noCell (show _ = some 2 by decide) (by decide))
    · exact .fails (show _ = some ("kill".toList, "1".toList) by decide)
        (.noProcess (show _ = some 1 by decide) (by decide))
    · exact .fails (show _ = some ("tick".toList, "10001".toList) by decide)
        (.manyTicks (show _ = some 10001 by decide) (by decide))
    · exact .unknown (show _ = some ("boo".toList, []) by decide) (by decide)
  have loud : ∀ line ∈ ["cd nowhere", "mem 2", "kill 1", "tick 10001", "boo"], ¬Quiet line := by
    unfold Quiet
    decide
  constructor
  · intro line member
    obtain ⟨-, -, -, untouched⟩ := answer_of_idle machine line
    obtain ⟨kept, -, taken⟩ := untouched (idle line member)
    rw [(taken (loud line member)).2] at kept
    exact ⟨idle line member, kept⟩
  · obtain ⟨-, -, reports, -⟩ := answer_of_idle machine "mem 2"
    rw [reports "mem" "2".toList _ (by decide) (.noCell (show _ = some 2 by decide) (by decide))]
    decide

/-! ## Sessions -/

private theorem Fails.withOutput {error : CommandError} (fails : Fails machine verb rest error)
    (output : Array String) : Fails (machine.withOutput output) verb rest error := by
  cases fails with
  | files asked refused => exact .files asked refused
  | nothingToWrite => exact .nothingToWrite
  | spawn unread => exact .spawn unread
  | run running unread => exact .run running unread
  | noNumber unread => exact .noNumber unread
  | noProcess read absent => exact .noProcess read absent
  | noCount given unread => exact .noCount given unread
  | manyTicks read many => exact .manyTicks read many
  | noAddress unread => exact .noAddress unread
  | noCell read outside => exact .noCell read outside

/-- Whether a line changes nothing does not depend on the lines that wait. -/
theorem Idle.withOutput (idle : Idle machine line) (output : Array String) :
    Idle (machine.withOutput output) line := by
  cases idle with
  | quiet quiet => exact .quiet quiet
  | shows start shown => exact .shows start shown
  | unknown start absent => exact .unknown start absent
  | halted start stopped => exact .halted start stopped
  | fails start fails => exact .fails start (fails.withOutput output)

private theorem session_command (machine : Machine) (line : String) (events : List Event) :
    (session respond machine (.command line :: events)).1 =
      (session respond (answer machine line).1 events).1 := rfl

/-- A session of lines each of which changes nothing changes nothing. -/
theorem session_of_idle {lines : List String} (idle : ∀ line ∈ lines, Idle machine line) :
    let final := (session respond machine (lines.map .command)).1
    final = machine.withOutput final.core.output := by
  induction lines generalizing machine with
  | nil => rfl
  | cons line others ih =>
    rw [List.forall_mem_cons] at idle
    rw [List.map_cons, session_command, idle.1.answer_eq]
    exact ih fun other member => (idle.2 other member).withOutput _

end Console

end RegisterMachine
