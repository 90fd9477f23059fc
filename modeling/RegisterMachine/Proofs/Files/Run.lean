import RegisterMachine.Files

/-! # Runs of file operations

Every operation of the tree as data, so that a run is a list of them. An operation that fails is
reported and leaves the tree as it is.
-/

namespace RegisterMachine.Files

/-- One operation on the tree, with the name that it is given. -/
inductive Operation where
  | makeDirectory (name : String)
  | changeDirectory (name : String)
  | list
  | write (name content : String)
  | read (name : String)
  | remove (name : String)
  deriving DecidableEq, Repr

def Operation.name? : Operation → Option String
  | makeDirectory name | changeDirectory name | write name _ | read name | remove name => some name
  | list => none

/-- What an operation that succeeds has to say. -/
inductive Answer where
  | done
  | items (items : List Item)
  | content (content : String)
  deriving DecidableEq, Repr

/-- The tree after an operation with its answer, or why it fails. -/
def perform (files : Files) : Operation → Except Error (Files × Answer)
  | .makeDirectory name => (files.makeDirectory name).map fun files => (files, .done)
  | .changeDirectory name => (files.changeDirectory name).map fun files => (files, .done)
  | .list => files.list.map fun items => (files, .items items)
  | .write name content => (files.write name content).map fun files => (files, .done)
  | .read name => (files.read name).map fun content => (files, .content content)
  | .remove name => (files.remove name).map fun files => (files, .done)

/-- The tree after an operation, whether it succeeds or fails. -/
def after (files : Files) (operation : Operation) : Files :=
  match files.perform operation with
  | .ok (changed, _) => changed
  | .error _ => files

def run (files : Files) (operations : List Operation) : Files := operations.foldl after files

end RegisterMachine.Files
