import RegisterMachine.Proofs.Listing.Written

/-! # Reassembling listings

Every assembled instruction is one that a listing can hold, with no more marks than its statement.
The listing of an assembled program therefore gives the program back exactly when each of its lines
is one statement: a line that is cut loses marks, which no instruction of the program can make up
for.
-/

namespace RegisterMachine.Listing

open Text

/-! ## Marks of written instructions -/

theorem marks_mnemonic {instruction : Instruction} (canonical : instruction.Canonical)
    {form : Form} (known : instruction.form? = some form) :
    marks instruction.mnemonic.toList = 0 := by
  obtain ⟨-, plain⟩ := Instruction.isAlphanum_mnemonic canonical known
  rw [marks, List.countP_eq_zero]
  intro c member
  exact not_isMark_of_isAlphanum (plain c member)

theorem marks_written (instruction : Instruction) :
    marks instruction.written.toList =
      marks instruction.mnemonic.toList + marks (Operand.textOf instruction.operand) := by
  rw [instruction.toList_written, marks_append, ← marks_trim instruction.writtenTail,
    instruction.trim_writtenTail, marks_trim]

/-! ## Assembled instructions -/

/-- An assembled instruction is one that a listing can hold, with no more marks than its
statement. -/
theorem listed_of_instruction {statement : Statement} (parsed : statement.Parsed)
    {position? : String → Option Nat} {instruction : Instruction}
    (success : statement.instruction position? = .ok instruction) :
    instruction.Listed ∧ marks instruction.written.toList ≤ statement.marks := by
  obtain ⟨operand, found, decoded⟩ := bind_eq_ok_iff.mp success
  replace decoded := mapError_eq_ok_iff.mp decoded
  have canonical := Instruction.canonical_of_decode decoded
  have all : ∀ word ∈ statement.arguments, IsWord word := fun _ => isWord_of_mem_words
  have inside : marks statement.arguments.flatten = marks statement.rest :=
    (marks_eq_marks_words statement.rest).symm
  rw [Instruction.decode] at decoded
  rw [Statement.operand] at found
  rw [marks_written, Statement.marks]
  cases known : Mnemonic.form? statement.mnemonic with
  | none =>
    rw [known] at decoded found
    cases decoded
    cases found
    refine ⟨⟨canonical, parsed.isWord, parsed.notLabel, plainOperand_words all⟩, ?_⟩
    rw [← inside]
    exact Nat.add_le_add_left (marks_plainOperand all) _
  | some form =>
    rw [known] at decoded found
    have read := mapError_eq_ok_iff.mp decoded
    have made := (Instruction.of_decode_form known read).2
    -- A built-in mnemonic has no marks, so that all of them stand in the operand.
    suffices spelled : instruction.Spelled ∧
        marks (Operand.textOf instruction.operand) ≤ marks statement.rest by
      rw [marks_mnemonic canonical made]
      exact ⟨⟨canonical, spelled.1⟩, by omega⟩
    cases form with
    | name make =>
      cases found
      obtain ⟨name, named, same⟩ := map_eq_ok_iff.mp read
      obtain ⟨phrase, marked⟩ := isPhrase_of_nameOperand all named
      obtain ⟨operand, spelled⟩ := Instruction.name_of_form? made same.symm
      rw [operand]
      exact ⟨spelled.mpr phrase, Nat.le_of_eq (marked.trans inside)⟩
    | file make =>
      obtain ⟨file, taken, rfl⟩ := map_eq_ok_iff.mp found
      obtain ⟨name, content, rfl, isWord, oneLine, fewer⟩ :=
        exists_of_fileOperand parsed.free taken
      obtain rfl := Instruction.file_of_form? made (Except.ok.inj read).symm
      exact ⟨⟨isWord, oneLine⟩, Nat.le_trans (Nat.le_of_eq (marks_file name content)) fewer⟩
    | bare _ | integer _ | destination _ | distance _ | register _ | cell _ =>
      have takes := Instruction.takes_of_form? canonical made
      obtain ⟨ws, written, unmarked⟩ := exists_unmarked takes (by simp) (by simp)
      rw [written, unmarked.marks_unwords]
      exact ⟨Instruction.spelled_of_form? made (by simp) (by simp), Nat.zero_le _⟩

/-! ## Listings of programs -/

section Programs

variable {program : List Instruction}

private theorem lines_ofProgram (listed : ∀ instruction ∈ program, instruction.Listed) :
    lines (ofProgram program).toList =
      program.map fun instruction => instruction.written.toList := by
  have isLine :
      ∀ line ∈ program.map fun instruction => instruction.written.toList, IsLine line := by
    intro line member
    obtain ⟨instruction, inside, rfl⟩ := List.mem_map.mp member
    exact Instruction.isLine_written (listed instruction inside)
  have written : (ofProgram program).toList =
      List.intercalate ['\n'] (program.map fun instruction => instruction.written.toList) := by
    rw [ofProgram, String.toList_intercalate, List.map_map]
    rfl
  rw [written, lines_intercalate isLine]

def statementsFrom (line : Nat) (program : List Instruction) : List Statement :=
  (program.zipIdx line).map fun entry => statementOf entry.2 entry.1

/-- A listing whose lines are one statement each has the statements of its program. -/
theorem sections_ofProgram (listed : ∀ instruction ∈ program, instruction.Listed)
    (one : ∀ instruction ∈ program, IsOneStatement instruction.written.toList) :
    sections (ofProgram program).toList =
      (statementsFrom 1 program).map fun statement => ⟨statement.line, [], some statement⟩ := by
  rw [sections, lines_ofProgram listed]
  generalize 1 = start
  induction program generalizing start with
  | nil => rfl
  | cons instruction others ih =>
    rw [List.forall_mem_cons] at listed one
    simp only [List.map_cons, List.zipIdx_cons, List.flatMap_cons, chunks_eq_singleton one.1,
      ofChunk_written listed.1, List.map_nil, ih listed.2 one.2]
    rfl

private theorem mapM_statementsFrom (listed : ∀ instruction ∈ program, instruction.Listed)
    (line : Nat) :
    (statementsFrom line program).mapM (Statement.instruction fun _ => none) = .ok program := by
  rw [mapM_eq_ok_iff]
  induction program generalizing line with
  | nil => exact .nil
  | cons instruction others ih =>
    rw [List.forall_mem_cons] at listed
    exact .cons (instruction_statementOf listed.1 line) (ih listed.2 (line + 1))

private theorem definitionsFrom_eq_nil {pieces : List Section}
    (none : ∀ piece ∈ pieces, piece.labels = [])
    (position : Nat) : definitionsFrom position pieces = [] := by
  induction pieces generalizing position with
  | nil => rfl
  | cons piece others ih =>
    rw [List.forall_mem_cons] at none
    rw [definitionsFrom, none.1, ih none.2]
    rfl

/-- A program of instructions that listings hold is given back by its listing when each of the lines
is one statement. -/
theorem assemble_ofProgram (listed : ∀ instruction ∈ program, instruction.Listed)
    (one : ∀ instruction ∈ program, IsOneStatement instruction.written.toList) :
    assemble (ofProgram program) = .ok program := by
  have labels : definitions (sections (ofProgram program).toList) = [] := by
    rw [sections_ofProgram listed one]
    apply definitionsFrom_eq_nil
    intro piece member
    obtain ⟨statement, -, rfl⟩ := List.mem_map.mp member
    rfl
  have read : statements (sections (ofProgram program).toList) = statementsFrom 1 program := by
    rw [sections_ofProgram listed one, statements, List.filterMap_map]
    exact List.filterMap_some
  rw [assemble, labels, read]
  exact mapM_statementsFrom listed 1

end Programs

/-! ## Assembled programs -/

/-- The instructions of parsed statements are ones that listings hold, with no more marks. -/
theorem listed_of_forall₂ {position? : String → Option Nat} {read : List Statement}
    {program : List Instruction} (parsed : ∀ statement ∈ read, statement.Parsed)
    (success : List.Forall₂ (fun statement instruction =>
      Statement.instruction position? statement = .ok instruction) read program) :
    (∀ instruction ∈ program, instruction.Listed) ∧
      (program.map fun instruction => marks instruction.written.toList).sum ≤
        (read.map Statement.marks).sum := by
  induction success with
  | nil => exact ⟨List.forall_mem_nil _, Nat.le_refl 0⟩
  | cons first _ ih =>
    rw [List.forall_mem_cons] at parsed
    obtain ⟨listed, fewer⟩ := listed_of_instruction parsed.1 first
    obtain ⟨others, fewerOthers⟩ := ih parsed.2
    rw [List.forall_mem_cons]
    refine ⟨⟨listed, others⟩, ?_⟩
    simp only [List.map_cons, List.sum_cons]
    omega

/-- An assembled program has instructions that listings hold, with no more marks in its lines than
the chunks of the source. -/
theorem listed_of_assemble {source : String} {program : List Instruction}
    (success : assemble source = .ok program) :
    (∀ instruction ∈ program, instruction.Listed) ∧
      (program.map fun instruction => marks instruction.written.toList).sum ≤
        ((lines source.toList).map fun line => ((chunks line).map marks).sum).sum := by
  rw [assemble] at success
  split at success
  · contradiction
  · obtain ⟨listed, fewer⟩ := listed_of_forall₂ (fun _ => parsed_of_mem_statements)
      (mapM_eq_ok_iff.mp success)
    exact ⟨listed, Nat.le_trans fewer (marks_statements_le (lines source.toList) 1)⟩

/-- The listing of an assembled program gives the program back exactly when each of its lines is one
statement. -/
theorem reassembles_iff {source : String} {program : List Instruction}
    (success : assemble source = .ok program) :
    assemble (ofProgram program) = .ok program ↔
      ∀ instruction ∈ program, IsOneStatement instruction.written.toList := by
  obtain ⟨listed, -⟩ := listed_of_assemble success
  constructor
  · intro again
    obtain ⟨-, kept⟩ := listed_of_assemble again
    have written : (program.map fun instruction => marks instruction.written.toList) =
        (program.map fun instruction => instruction.written.toList).map marks :=
      List.map_map.symm
    rw [lines_ofProgram listed, written] at kept
    -- What is assembled again has the marks of the cut lines at most, and it is the program itself.
    have one := isOneStatement_of_sum_le kept
    exact fun instruction member => one _ (List.mem_map_of_mem member)
  · exact assemble_ofProgram listed

/-- Quotes that the writing of a content adds keep a mark quoted, unless the content has quotes of
its own. -/
theorem reassembles_iff_write :
    assemble (ofProgram [.writeFile "x" "a;b"]) = .ok [.writeFile "x" "a;b"] ∧
      assemble (ofProgram [.writeFile "x" "a\"b;c\""]) ≠ .ok [.writeFile "x" "a\"b;c\""] := by
  have quoted : assemble "write x \"a;b\"" = .ok [.writeFile "x" "a;b"] := rfl
  have unquoted : assemble "write x a\"b;c\"" = .ok [.writeFile "x" "a\"b;c\""] := rfl
  constructor
  · exact (reassembles_iff quoted).mpr (by decide)
  · exact mt (reassembles_iff unquoted).mp (by decide)

/-- Not every assembled program is given back by its listing. -/
theorem write_not_reassembled :
    ¬ ∀ (source : String) (program : List Instruction), assemble source = .ok program →
      assemble (ofProgram program) = .ok program := by
  intro claim
  have again := claim "write x a\"b;c\"" [.writeFile "x" "a\"b;c\""] rfl
  have cut : assemble (ofProgram [.writeFile "x" "a\"b;c\""]) =
      .ok [.writeFile "x" "\"a\"b", .other "c\"\"" none] := rfl
  have same := congrArg List.length (Except.ok.inj (cut.symm.trans again))
  contradiction

end RegisterMachine.Listing
