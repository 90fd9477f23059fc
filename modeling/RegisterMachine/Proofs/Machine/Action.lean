import RegisterMachine.Machine.Run
import RegisterMachine.Machine.Schedule

/-! # Histories of a machine

Everything that can be asked of a machine as data, so that a history is a list of actions. Killing a
process that is not there is reported and leaves the machine as it is.
-/

namespace RegisterMachine.Machine

inductive Action where
  | spawn (program : List Instruction)
  | kill (pid : Nat)
  | tick
  | execute (program : List Instruction)
  | dispatch (instruction : Instruction)
  | reset
  deriving DecidableEq, Repr

def Action.isSpawn : Action → Bool
  | spawn _ => true
  | _ => false

def act (machine : Machine) : Action → Machine
  | .spawn program => (machine.spawn program).1
  | .kill pid =>
    match machine.kill pid with
    | .ok killed => killed
    | .error _ => machine
  | .tick => machine.tick.1
  | .execute program => (machine.execute program).1
  | .dispatch instruction => (machine.dispatch instruction).1
  | .reset => machine.reset

def run (machine : Machine) (actions : List Action) : Machine := actions.foldl act machine

theorem run_cons (machine : Machine) (action : Action) (actions : List Action) :
    machine.run (action :: actions) = (machine.act action).run actions := rfl

end RegisterMachine.Machine
