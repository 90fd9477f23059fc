import RegisterMachine.Proofs.Listing.Verdict

/-! # Where sections stand

The lines on which the sections of a listing stand matter to the errors only, and to no more of them
than the line that they name. Sections without a label and without a statement do not matter at all.
-/

namespace RegisterMachine.Listing

/-! ## Other lines -/

def LabelError.atLine (line : Nat) : LabelError → LabelError
  | empty _ => empty line
  | duplicate _ label => duplicate line label

def AssembleError.atLine (line : Nat) : AssembleError → AssembleError
  | label error => label (error.atLine line)
  | decode _ error => decode line error
  | cellShape _ mnemonic => cellShape line mnemonic
  | cellAddress _ text => cellAddress line text
  | cellRegister _ text => cellRegister line text
  | fileShape _ => fileShape line

def Definition.atLine (line : Nat) (definition : Definition) : Definition :=
  { definition with line }

def Statement.atLine (line : Nat) (statement : Statement) : Statement := { statement with line }

def Section.atLine (line : Nat) (piece : Section) : Section :=
  { piece with line, statement := piece.statement.map (Statement.atLine line) }

/-- Whether two outcomes are the same program, or the same error with lines that may differ. -/
inductive SameUpToLine :
    Except AssembleError (List Instruction) → Except AssembleError (List Instruction) → Prop
  | program (program : List Instruction) : SameUpToLine (.ok program) (.ok program)
  | error (error : AssembleError) (line : Nat) :
      SameUpToLine (.error error) (.error (error.atLine line))

namespace AssembleError

private theorem atLine_atLine (error : AssembleError) (first second : Nat) :
    (error.atLine first).atLine second = error.atLine second := by
  cases error with
  | label error => cases error <;> rfl
  | _ => rfl

private theorem atLine_line (error : AssembleError) : error.atLine error.line = error := by
  cases error with
  | label error => cases error <;> rfl
  | _ => rfl

end AssembleError

/-- Outcomes that become equal on one line are the same up to the line. -/
theorem sameUpToLine_of_mapError (line : Nat)
    {first second : Except AssembleError (List Instruction)}
    (same : first.mapError (AssembleError.atLine line) =
      second.mapError (AssembleError.atLine line)) : SameUpToLine first second := by
  cases first with
  | ok program =>
    obtain rfl := mapError_eq_ok_iff.mp same.symm
    exact .program program
  | error error =>
    obtain ⟨other, rfl, moved⟩ := mapError_eq_error_iff.mp same.symm
    have changed : error.atLine other.line = other :=
      calc
        error.atLine other.line = (error.atLine line).atLine other.line :=
          (error.atLine_atLine line other.line).symm
        _ = (other.atLine line).atLine other.line := by rw [moved]
        _ = other.atLine other.line := other.atLine_atLine line other.line
        _ = other := other.atLine_line
    exact changed ▸ .error error other.line

/-! ## Sections on one line -/

def programOf (pieces : List Section) : Except AssembleError (List Instruction) :=
  match labelError? (definitions pieces) with
  | some error => .error (.label error)
  | none => (statements pieces).mapM (Statement.instruction (position? (definitions pieces)))

theorem assemble_eq_programOf (source : String) :
    assemble source = programOf (sections source.toList) := rfl

section Lines

variable (line : Nat)

theorem ofChunk_atLine (number : Nat) (chunk : List Char) :
    (Section.ofChunk number chunk).atLine line = Section.ofChunk line chunk := by
  simp only [Section.ofChunk, Section.atLine, Option.map_map]
  rfl

private theorem cellOperand_atLine (statement : Statement) :
    cellOperand (statement.atLine line) =
      (cellOperand statement).mapError (AssembleError.atLine line) := by
  rw [cellOperand, cellOperand, Statement.arguments, Statement.arguments, Statement.atLine]
  cases Text.words statement.rest with
  | nil => rfl
  | cons address others =>
    cases others with
    | nil => rfl
    | cons register others =>
      cases others with
      | cons third others => rfl
      | nil =>
        dsimp only
        cases Text.word? address with
        | none => rfl
        | some value => cases Register.ofName? (String.ofList register) <;> rfl

private theorem fileOperand_atLine (statement : Statement) :
    fileOperand (statement.atLine line) =
      (fileOperand statement).mapError (AssembleError.atLine line) := by
  rw [fileOperand, fileOperand, Statement.atLine]
  cases Text.firstWord? statement.rest <;> rfl

private theorem operand_atLine (position? : String → Option Nat) (statement : Statement) :
    (statement.atLine line).operand position? =
      (statement.operand position?).mapError (AssembleError.atLine line) := by
  have mnemonic : (statement.atLine line).mnemonic = statement.mnemonic := rfl
  rw [Statement.operand, Statement.operand, mnemonic]
  cases Mnemonic.form? statement.mnemonic with
  | none => rfl
  | some form =>
    cases form with
    | cell make =>
      dsimp only
      rw [cellOperand_atLine]
      cases cellOperand statement <;> rfl
    | file make =>
      dsimp only
      rw [fileOperand_atLine]
      cases fileOperand statement <;> rfl
    | _ => rfl

/-- On another line a statement stands for the same instruction, or fails with the same error on
that line. -/
theorem instruction_atLine (position? : String → Option Nat) (statement : Statement) :
    (statement.atLine line).instruction position? =
      (statement.instruction position?).mapError (AssembleError.atLine line) := by
  rw [Statement.instruction, Statement.instruction, operand_atLine]
  cases statement.operand position? with
  | error error => rfl
  | ok operand =>
    have mnemonic : (statement.atLine line).mnemonic = statement.mnemonic := rfl
    simp only [Except.mapError, bind, Except.bind, mnemonic]
    cases Instruction.decode statement.mnemonic operand <;> rfl

private theorem statements_atLine (pieces : List Section) :
    statements (pieces.map (Section.atLine line)) =
      (statements pieces).map (Statement.atLine line) := by
  rw [statements, statements, List.filterMap_map, List.map_filterMap]
  rfl

theorem definitionsFrom_atLine (position : Nat) (pieces : List Section) :
    definitionsFrom position (pieces.map (Section.atLine line)) =
      (definitionsFrom position pieces).map (Definition.atLine line) := by
  induction pieces generalizing position with
  | nil => rfl
  | cons piece others ih =>
    have stated : (piece.atLine line).statement.isSome = piece.statement.isSome :=
      Option.isSome_map
    rw [List.map_cons, definitionsFrom, definitionsFrom, List.map_append, List.map_map, stated, ih]
    rfl

private theorem labelErrorFrom?_atLine (seen : List String) (found : List Definition) :
    labelErrorFrom? seen (found.map (Definition.atLine line)) =
      (labelErrorFrom? seen found).map (LabelError.atLine line) := by
  induction found generalizing seen with
  | nil => rfl
  | cons definition others ih =>
    have label : (definition.atLine line).label = definition.label := rfl
    rw [List.map_cons, labelErrorFrom?, labelErrorFrom?, label]
    split
    · rfl
    · split
      · rfl
      · exact ih _

private theorem position?_atLine (found : List Definition) :
    position? (found.map (Definition.atLine line)) = position? found := by
  funext label
  rw [position?, position?, List.find?_map, Option.map_map]
  rfl

/-- On one line all sections have the same program, or the same error on that line. -/
theorem programOf_atLine (pieces : List Section) :
    programOf (pieces.map (Section.atLine line)) =
      (programOf pieces).mapError (AssembleError.atLine line) := by
  rw [programOf, programOf, definitions, definitions, definitionsFrom_atLine, labelError?,
    labelError?, labelErrorFrom?_atLine, position?_atLine, statements_atLine]
  cases labelErrorFrom? [] (definitionsFrom 0 pieces) with
  | some error => rfl
  | none =>
    dsimp only [Option.map_none]
    rw [List.mapM_map, ← mapM_mapError]
    congr 1
    funext statement
    exact instruction_atLine line _ statement

end Lines

/-! ## Sections that say nothing -/

def Section.speaks (piece : Section) : Bool := !piece.labels.isEmpty || piece.statement.isSome

private theorem speaks_eq_false_iff {piece : Section} :
    piece.speaks = false ↔ piece.labels = [] ∧ piece.statement = none := by
  rw [Section.speaks, Bool.or_eq_false_iff, Bool.not_eq_false', List.isEmpty_iff,
    Option.isSome_eq_false_iff, Option.isNone_iff_eq_none]

private theorem statements_filter_speaks (pieces : List Section) :
    statements (pieces.filter Section.speaks) = statements pieces := by
  rw [statements, statements, List.filterMap_filter]
  congr 1
  funext piece
  cases speaks : piece.speaks with
  | true => rfl
  | false => exact (speaks_eq_false_iff.mp speaks).2.symm

theorem definitionsFrom_filter_speaks (position : Nat) (pieces : List Section) :
    definitionsFrom position (pieces.filter Section.speaks) = definitionsFrom position pieces := by
  induction pieces generalizing position with
  | nil => rfl
  | cons piece others ih =>
    cases speaks : piece.speaks with
    | true => rw [List.filter_cons_of_pos speaks, definitionsFrom, definitionsFrom, ih]
    | false =>
      obtain ⟨labels, statement⟩ := speaks_eq_false_iff.mp speaks
      rw [List.filter_cons_of_neg (by simp [speaks]), definitionsFrom, labels, statement, ih]
      rfl

theorem programOf_filter_speaks (pieces : List Section) :
    programOf (pieces.filter Section.speaks) = programOf pieces := by
  rw [programOf, programOf, definitions, definitions, definitionsFrom_filter_speaks,
    statements_filter_speaks]

end RegisterMachine.Listing
