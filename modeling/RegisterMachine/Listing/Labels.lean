import RegisterMachine.Listing.Statement

/-! # Labels of a listing

A label stands for the number of statements before it. Labels are not empty and no two are equal;
the first definition that breaks this rule is the one reported.
-/

namespace RegisterMachine.Listing

/-- A label where it is defined. -/
structure Definition where
  line : Nat
  label : String
  position : Nat
  deriving DecidableEq, Repr

inductive LabelError where
  | empty (line : Nat)
  | duplicate (line : Nat) (label : String)
  deriving DecidableEq, Repr

/-- The definitions in sections that a number of statements precede. -/
def definitionsFrom (position : Nat) : List Section → List Definition
  | [] => []
  | piece :: others =>
    piece.labels.map (fun label => ⟨piece.line, label, position⟩) ++
      definitionsFrom (if piece.statement.isSome then position + 1 else position) others

def definitions (sections : List Section) : List Definition := definitionsFrom 0 sections

/-- The first definition that has an empty label or one already seen. -/
def labelErrorFrom? (seen : List String) : List Definition → Option LabelError
  | [] => none
  | definition :: others =>
    if definition.label = "" then some (.empty definition.line)
    else if definition.label ∈ seen then some (.duplicate definition.line definition.label)
    else labelErrorFrom? (definition.label :: seen) others

/-- The first wrong one of some definitions. -/
def labelError? (definitions : List Definition) : Option LabelError :=
  labelErrorFrom? [] definitions

def position? (definitions : List Definition) (label : String) : Option Nat :=
  (definitions.find? fun definition => definition.label == label).map (·.position)

end RegisterMachine.Listing
