import RegisterMachine.Proofs.Console.FileCommands
import RegisterMachine.Proofs.Console.Marked
import RegisterMachine.Proofs.Files.InPlace

/-! # Commands in place

The console's commands are given here once more as steps that change a machine in place, one after
the other and down to the operations of the tree. A step that fails leaves behind whatever the steps
before it have done; no command has done anything by then, and so each comes to the same as a change
that is made at once or not at all.
-/

namespace RegisterMachine.Console

open Files (Operation)

/-- Carries out a file operation on the tree of a machine, and tells what it has to say. -/
def conductFiles (operation : Operation) : InPlace Machine CommandError (List String) :=
  fun machine =>
    let (outcome, files) := Files.stepwise operation machine.core.files
    ((outcome.map (machine.core.files.told operation)).mapError .files,
      machine.mapCore fun core => { core with files })

def conductKill (pid : Nat) : InPlace Machine CommandError Unit := do
  let table ← ((← get).table.kill pid).mapError CommandError.noSuchProcess
  modify fun machine => { machine with table }
  modify fun machine => machine.mapCore fun core => core.note .info s!"killed pid {pid}"

def conductTicks : Nat → InPlace Machine CommandError (List String)
  | 0 => return []
  | count + 1 => do
    let report ← modifyGet fun machine => machine.tick.swap
    let printed ← modifyGet Machine.takeOutput
    let others ← conductTicks count
    return printed ++ tickLines report ++ others

/-- Carries out a command on a machine that is changed in place. -/
def conduct (verb : String) (rest : List Char) : InPlace Machine CommandError (List String) :=
  match fileOperation? verb rest with
  | some operation => conductFiles operation
  | none => do
    match verb with
    | "help" => return [help]
    | "write" => throw (.usage "write <name> <content...>")
    | "pwd" => return [(← get).core.files.pathText]
    | "spawn" =>
      let program ← (Program.ofText (String.ofList rest)).mapError CommandError.program
      let pid ← modifyGet fun machine => (machine.spawn program).swap
      return [s!"spawned pid {pid}"]
    | "ps" => return processLines (← get)
    | "kill" =>
      let some pid := Text.naturalBelow? UInt32.size rest | throw (.usage "kill <pid>")
      conductKill pid
      return [s!"killed pid {pid}"]
    | "tick" => conductTicks (← tickCount rest)
    | "run" =>
      if (← get).core.cpu.halted then return ["cpu is halted; use `reset` first"]
      let program ← (Program.ofText (String.ofList rest)).mapError CommandError.program
      let report ← modifyGet fun machine => (machine.execute program).swap
      let printed ← modifyGet Machine.takeOutput
      let faults := report.faults.toList.map fun fault => s!"fault: {fault.message}"
      return printed ++ faults ++ [outcomeLine report]
    | "regs" => return [(← get).registersLine]
    | "mem" =>
      let some address := Text.word? rest | throw (.usage "mem <addr>")
      let value ← ((← get).core.memory.read address).mapError CommandError.bounds
      return [s!"Memory[{address}] = {value}"]
    | "reset" =>
      modify Machine.reset
      return ["cpu reset"]
    | _ => return [s!"Unknown command: {verb}"]

/-- Answers a line on a machine that is changed in place. -/
def converse (line : String) : StateM Machine Answer := do
  match Text.firstWord? line.toList with
  | none => return {}
  | some (verb, rest) =>
    if verb = "clear".toList then return { clear := true }
    let lines ←
      match ← (conduct (String.ofList verb) rest).run with
      | .ok lines => pure lines
      | .error error => pure [s!"Error: {error.message}"]
    let pending ← modifyGet Machine.takeOutput
    return { lines := pending ++ lines }

private theorem conductTicks_eq (count : Nat) :
    conductTicks count = .atOnce fun machine => .ok (ticks machine count) := by
  funext machine
  rw [InPlace.atOnce]
  induction count generalizing machine with
  | zero => rfl
  | succ count ih =>
    rw [conductTicks, ticks]
    show (conductTicks count >>= _) _ = _
    rw [InPlace.bind_apply, ih]
    rfl

private theorem conductKill_eq (pid : Nat) :
    conductKill pid = .atOnce fun machine =>
      ((machine.kill pid).mapError .noSuchProcess).map fun machine => (machine, ()) := by
  funext machine
  rw [InPlace.atOnce, Machine.kill]
  show ((liftM ((machine.table.kill pid).mapError CommandError.noSuchProcess) :
    InPlace Machine CommandError _) >>= _) machine = _
  rw [InPlace.bind_apply, InPlace.lift_apply]
  cases machine.table.kill pid <;> rfl

/-- No command fails after it has changed anything. -/
theorem conduct_eq (verb : String) (rest : List Char) :
    conduct verb rest = .atOnce fun machine => perform machine verb rest := by
  funext machine
  unfold InPlace.atOnce conduct
  cases asked : fileOperation? verb rest with
  | some operation =>
    dsimp only
    rw [perform_of_fileOperation machine asked, conductFiles, Files.stepwise_eq, InPlace.atOnce]
    cases machine.core.files.perform operation <;> rfl
  | none =>
    dsimp only
    split
    case h_1 | h_3 | h_5 | h_9 | h_11 => rfl
    case h_2 =>
      cases rest with
      | nil => rfl
      | cons first rest => contradiction
    case h_4 =>
      show _ = InPlace.keeping machine (spawn machine (String.ofList rest))
      rw [spawn, InPlace.bind_apply, InPlace.lift_apply]
      cases Program.ofText (String.ofList rest) <;> rfl
    case h_6 =>
      show _ = InPlace.keeping machine (kill machine rest)
      rw [kill]
      cases Text.naturalBelow? UInt32.size rest with
      | none => rfl
      | some pid =>
        dsimp only
        rw [InPlace.bind_apply, conductKill_eq, InPlace.atOnce]
        cases machine.kill pid <;> rfl
    case h_7 =>
      show _ = InPlace.keeping machine (tickCommand machine rest)
      rw [tickCommand_eq, InPlace.bind_apply, InPlace.lift_apply]
      cases tickCount rest with
      | error error => rfl
      | ok count =>
        dsimp only
        rw [conductTicks_eq]
        rfl
    case h_8 =>
      show _ = InPlace.keeping machine (run machine (String.ofList rest))
      rw [run, InPlace.bind_apply, InPlace.get_apply]
      dsimp only
      split
      · rfl
      · rw [InPlace.bind_apply, InPlace.lift_apply]
        cases Program.ofText (String.ofList rest) <;> rfl
    case h_10 =>
      show _ = InPlace.keeping machine (cell machine rest)
      rw [cell]
      cases Text.word? rest with
      | none => rfl
      | some address =>
        dsimp only
        rw [InPlace.bind_apply, InPlace.get_apply]
        dsimp only
        rw [InPlace.bind_apply, InPlace.lift_apply]
        cases machine.core.memory.read address <;> rfl
    case h_12 =>
      have unknown : perform machine verb rest =
          .ok (machine, [s!"Unknown command: {verb}"]) := by
        unfold perform
        dsimp only
        split <;> first | rfl | contradiction
      rw [unknown]
      rfl

theorem converse_eq (line : String) (machine : Machine) :
    (converse line).run machine = (answer machine line).swap := by
  rw [converse, answer]
  rcases Text.firstWord? line.toList with _ | ⟨verb, rest⟩
  · rfl
  · dsimp only
    split
    · rfl
    · have settled : (conduct (String.ofList verb) rest).run.run machine =
          InPlace.keeping machine (perform machine (String.ofList verb) rest) := by
        rw [conduct_eq]
        rfl
      rw [StateT.run_bind, settled]
      cases perform machine (String.ofList verb) rest <;> rfl

end RegisterMachine.Console
