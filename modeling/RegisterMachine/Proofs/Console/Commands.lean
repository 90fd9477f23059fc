import RegisterMachine.Proofs.Console.FileCommands
import RegisterMachine.Proofs.Console.Marked
import RegisterMachine.Proofs.Memory
import RegisterMachine.Proofs.Success

/-! # What a command can do

A command fails for a reason that the machine and the command tell before anything is done, or it
does one of a few things: a file operation, a look at the machine, a change of the process table,
ticks, a run, a reset. Everything that all commands keep is read off this list.
-/

namespace RegisterMachine

/-- A process is killed unless none has the number. -/
theorem Machine.kill_eq_error_iff {machine : Machine} {pid : Nat} {error : NoSuchProcess} :
    machine.kill pid = .error error ↔
      (∀ process ∈ machine.table.processes, process.pid ≠ pid) ∧ ⟨pid⟩ = error := by
  have absent : machine.table.get? pid = none ↔
      ∀ process ∈ machine.table.processes, process.pid ≠ pid := by
    rw [ProcessTable.get?, List.find?_eq_none]
    simp only [beq_iff_eq, ne_eq]
  rw [kill, map_eq_error_iff, ProcessTable.kill, ← absent]
  cases machine.table.get? pid <;> simp

namespace Console

variable {machine : Machine} {verb : String} {rest : List Char}

/-! ## Commands that fail -/

/-- Why a command fails. -/
inductive Fails (machine : Machine) : String → List Char → CommandError → Prop
  | files {verb : String} {rest : List Char} {operation : Files.Operation} {error : Files.Error}
      (asked : fileOperation? verb rest = some operation)
      (refused : machine.core.files.perform operation = .error error) :
      Fails machine verb rest (.files error)
  | nothingToWrite : Fails machine "write" [] (.usage "write <name> <content...>")
  | spawn {rest : List Char} {error : Program.ReadError}
      (unread : Program.ofText (String.ofList rest) = .error error) :
      Fails machine "spawn" rest (.program error)
  | run {rest : List Char} {error : Program.ReadError} (running : machine.core.cpu.halted = false)
      (unread : Program.ofText (String.ofList rest) = .error error) :
      Fails machine "run" rest (.program error)
  | noNumber {rest : List Char} (unread : Text.naturalBelow? UInt32.size rest = none) :
      Fails machine "kill" rest (.usage "kill <pid>")
  | noProcess {rest : List Char} {pid : Nat}
      (read : Text.naturalBelow? UInt32.size rest = some pid)
      (absent : ∀ process ∈ machine.table.processes, process.pid ≠ pid) :
      Fails machine "kill" rest (.noSuchProcess ⟨pid⟩)
  | noCount {rest : List Char} (given : rest ≠ [])
      (unread : Text.naturalBelow? UInt64.size rest = none) :
      Fails machine "tick" rest (.usage "tick [count]")
  | manyTicks {rest : List Char} {count : Nat}
      (read : Text.naturalBelow? UInt64.size rest = some count) (many : tickLimit < count) :
      Fails machine "tick" rest (.tooManyTicks count)
  | noAddress {rest : List Char} (unread : Text.word? rest = none) :
      Fails machine "mem" rest (.usage "mem <addr>")
  | noCell {rest : List Char} {address : Word} (read : Text.word? rest = some address)
      (outside : address.toInt < 0 ∨ machine.core.memory.size ≤ address.toInt) :
      Fails machine "mem" rest (.bounds (.read address machine.core.memory.size))

private theorem tickCount_eq_error_iff {error : CommandError} :
    tickCount rest = .error error ↔
      (rest ≠ [] ∧ Text.naturalBelow? UInt64.size rest = none ∧ .usage "tick [count]" = error) ∨
        ∃ count, Text.naturalBelow? UInt64.size rest = some count ∧ tickLimit < count ∧
          .tooManyTicks count = error := by
  rw [tickCount]
  cases rest with
  | nil =>
    have nothing : Text.naturalBelow? UInt64.size [] = none := rfl
    simp [nothing, tickLimit]
  | cons first others =>
    cases Text.naturalBelow? UInt64.size (first :: others) with
    | none => simp
    | some count =>
      simp only [List.isEmpty_cons, Bool.false_eq_true, ↓reduceIte]
      split
      · next many => simp [many]
      · next few => simp [few]

theorem perform_of_fails {error : CommandError} (fails : Fails machine verb rest error) :
    perform machine verb rest = .error error := by
  cases fails with
  | files asked refused => rw [perform_of_fileOperation machine asked, refused]
  | nothingToWrite => rfl
  | spawn unread =>
    show Console.spawn machine _ = _
    rw [Console.spawn, unread]
  | run running unread =>
    show Console.run machine _ = _
    rw [Console.run, running, unread]
    rfl
  | noNumber unread =>
    show kill machine rest = _
    rw [kill, unread]
  | noProcess read absent =>
    show kill machine rest = _
    rw [kill, read]
    simp only [Machine.kill_eq_error_iff.mpr ⟨absent, rfl⟩]
  | noCount given unread =>
    show tickCommand machine rest = _
    rw [tickCommand_eq, tickCount_eq_error_iff.mpr (.inl ⟨given, unread, rfl⟩)]
    rfl
  | manyTicks read many =>
    show tickCommand machine rest = _
    rw [tickCommand_eq, tickCount_eq_error_iff.mpr (.inr ⟨_, read, many, rfl⟩)]
    rfl
  | noAddress unread =>
    show cell machine rest = _
    rw [cell, unread]
  | noCell read outside =>
    show cell machine rest = _
    rw [cell, read]
    simp only [Memory.read_eq_error_iff.mpr ⟨outside, rfl⟩]

/-! ## Commands that succeed -/

/-- What a command does, with the machine after it and what it tells. -/
inductive Does (machine : Machine) : String → List Char → Machine × List String → Prop
  | files {verb : String} {rest : List Char} {operation : Files.Operation} {files : Files}
      {answer : Files.Answer} (asked : fileOperation? verb rest = some operation)
      (performed : machine.core.files.perform operation = .ok (files, answer)) :
      Does machine verb rest (machine.mapCore fun core => { core with files },
        machine.core.files.told operation answer)
  | shows {verb : String} {rest : List Char} (lines : List String) :
      Does machine verb rest (machine, lines)
  | spawn {rest : List Char} {program : List Instruction}
      (read : Program.ofText (String.ofList rest) = .ok program) :
      Does machine "spawn" rest
        ((machine.spawn program).1, [s!"spawned pid {(machine.spawn program).2}"])
  | kill {rest : List Char} {pid : Nat} {killed : Machine}
      (read : Text.naturalBelow? UInt32.size rest = some pid)
      (there : machine.kill pid = .ok killed) :
      Does machine "kill" rest (killed, [s!"killed pid {pid}"])
  | tick {rest : List Char} {count : Nat} (asked : tickCount rest = .ok count) :
      Does machine "tick" rest (ticks machine count)
  | run {rest : List Char} {program : List Instruction} {after : Machine} {report : RunReport}
      (running : machine.core.cpu.halted = false)
      (read : Program.ofText (String.ofList rest) = .ok program)
      (executed : machine.execute program = (after, report)) :
      Does machine "run" rest (after.withOutput #[], after.core.output.toList ++
        (report.faults.toList.map fun fault => s!"fault: {fault.message}") ++ [outcomeLine report])
  | reset {rest : List Char} : Does machine "reset" rest (machine.reset, ["cpu reset"])

inductive Outcome (machine : Machine) (verb : String) (rest : List Char) : Result → Prop
  | does {done : Machine × List String} (does : Does machine verb rest done) :
      Outcome machine verb rest (.ok done)
  | fails {error : CommandError} (fails : Fails machine verb rest error) :
      Outcome machine verb rest (.error error)

private theorem outcome_kill (machine : Machine) (rest : List Char) :
    Outcome machine "kill" rest (kill machine rest) := by
  rw [kill]
  cases read : Text.naturalBelow? UInt32.size rest with
  | none => exact .fails (.noNumber read)
  | some pid =>
    dsimp only
    cases tried : machine.kill pid with
    | ok killed => exact .does (.kill read tried)
    | error error =>
      obtain ⟨absent, rfl⟩ := Machine.kill_eq_error_iff.mp tried
      exact .fails (.noProcess read absent)

private theorem outcome_tick (machine : Machine) (rest : List Char) :
    Outcome machine "tick" rest (tickCommand machine rest) := by
  rw [tickCommand_eq]
  cases asked : tickCount rest with
  | ok count => exact .does (.tick asked)
  | error error =>
    rcases tickCount_eq_error_iff.mp asked with ⟨given, unread, rfl⟩ | ⟨count, read, many, rfl⟩
    · exact .fails (.noCount given unread)
    · exact .fails (.manyTicks read many)

private theorem outcome_run (machine : Machine) (rest : List Char) :
    Outcome machine "run" rest (run machine (String.ofList rest)) := by
  rw [run]
  cases running : machine.core.cpu.halted with
  | true => exact .does (.shows _)
  | false =>
    cases read : Program.ofText (String.ofList rest) with
    | ok program => exact .does (.run running read rfl)
    | error error => exact .fails (.run running read)

private theorem outcome_cell (machine : Machine) (rest : List Char) :
    Outcome machine "mem" rest (cell machine rest) := by
  rw [cell]
  cases read : Text.word? rest with
  | none => exact .fails (.noAddress read)
  | some address =>
    dsimp only
    cases tried : machine.core.memory.read address with
    | ok value => exact .does (.shows _)
    | error fault =>
      obtain ⟨outside, rfl⟩ := Memory.read_eq_error_iff.mp tried
      exact .fails (.noCell read outside)

/-- Every command comes out in one of these ways. -/
theorem outcome_perform (machine : Machine) (verb : String) (rest : List Char) :
    Outcome machine verb rest (perform machine verb rest) := by
  cases asked : fileOperation? verb rest with
  | some operation =>
    rw [perform_of_fileOperation machine asked]
    cases performed : machine.core.files.perform operation with
    | ok done => exact .does (.files asked performed)
    | error error => exact .fails (.files asked performed)
  | none =>
    unfold perform
    dsimp only
    split
    -- The verbs that only show something, and those that are not known.
    case h_1 | h_8 | h_10 | h_14 | h_17 => exact .does (.shows _)
    case h_2 | h_3 | h_4 | h_5 | h_7 => contradiction
    case h_6 =>
      cases rest with
      | nil => exact .fails .nothingToWrite
      | cons first others => contradiction
    case h_9 =>
      rw [spawn]
      cases read : Program.ofText (String.ofList rest) with
      | ok program => exact .does (.spawn read)
      | error error => exact .fails (.spawn read)
    case h_11 => exact outcome_kill machine rest
    case h_12 => exact outcome_tick machine rest
    case h_13 => exact outcome_run machine rest
    case h_15 => exact outcome_cell machine rest
    case h_16 => exact .does .reset

theorem does_of_perform {done : Machine × List String}
    (success : perform machine verb rest = .ok done) : Does machine verb rest done := by
  have outcome := outcome_perform machine verb rest
  rw [success] at outcome
  cases outcome with
  | does does => exact does

theorem fails_of_perform {error : CommandError}
    (failure : perform machine verb rest = .error error) : Fails machine verb rest error := by
  have outcome := outcome_perform machine verb rest
  rw [failure] at outcome
  cases outcome with
  | fails fails => exact fails

end Console

end RegisterMachine
