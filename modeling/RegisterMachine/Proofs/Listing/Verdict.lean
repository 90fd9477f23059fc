import RegisterMachine.Listing.Assemble
import RegisterMachine.Proofs.Listing.Labels
import RegisterMachine.Proofs.Listing.Reading
import RegisterMachine.Proofs.Success

/-! # What becomes of a listing

Labels are judged before statements. A listing whose labels are not sound is refused for the first
wrong one, wherever its statements fail. One whose labels are sound is refused for the first
statement that stands for no instruction, with all labels known, and is a program if there is none.
-/

namespace RegisterMachine.Listing

def AssembleError.line : AssembleError → Nat
  | label (.empty line) | label (.duplicate line _) | decode line _ | cellShape line _
  | cellAddress line _ | cellRegister line _ | fileShape line => line

def AssembleError.isLabel : AssembleError → Bool
  | label _ => true
  | _ => false

namespace Statement

/-- A statement stands for an instruction, given where the labels point. -/
def Decodes (position? : String → Option Nat) (statement : Statement)
    (instruction : Instruction) : Prop :=
  ∃ operand, statement.operand position? = .ok operand ∧
    Instruction.decode statement.mnemonic operand = .ok instruction

/-- Why a statement stands for no instruction: there is no operand in its words, or its mnemonic
does not take the operand that they make. -/
inductive Fails (position? : String → Option Nat) (statement : Statement) : AssembleError → Prop
  | operand {error : AssembleError} (refused : statement.operand position? = .error error) :
      Fails position? statement error
  | decode {operand : Option Operand} {error : DecodeError}
      (built : statement.operand position? = .ok operand)
      (refused : Instruction.decode statement.mnemonic operand = .error error) :
      Fails position? statement (.decode statement.line error)

variable {position? : String → Option Nat} {statement : Statement} {error : AssembleError}

theorem instruction_eq_ok_iff {instruction : Instruction} :
    statement.instruction position? = .ok instruction ↔
      statement.Decodes position? instruction := by
  rw [Statement.instruction, bind_eq_ok_iff]
  simp only [mapError_eq_ok_iff, Decodes]

private theorem instruction_eq_error_iff :
    statement.instruction position? = .error error ↔ statement.Fails position? error := by
  rw [Statement.instruction, bind_eq_error_iff]
  constructor
  · rintro (refused | ⟨operand, built, refused⟩)
    · exact .operand refused
    · obtain ⟨cause, refuses, rfl⟩ := mapError_eq_error_iff.mp refused
      exact .decode built refuses
  · rintro (refused | ⟨built, refused⟩)
    · exact .inl refused
    · exact .inr ⟨_, built, mapError_eq_error_iff.mpr ⟨_, refused, rfl⟩⟩

/-- No statement that fails stands for an instruction. -/
theorem Fails.not_decodes (fails : statement.Fails position? error) (instruction : Instruction) :
    ¬statement.Decodes position? instruction := by
  intro decodes
  have failed := instruction_eq_error_iff.mpr fails
  rw [instruction_eq_ok_iff.mpr decodes] at failed
  contradiction

/-! ## The errors of a statement -/

private theorem of_cellOperand (refused : cellOperand statement = .error error) :
    error.line = statement.line ∧ error.isLabel = false := by
  rw [cellOperand] at refused
  split at refused
  · split at refused
    · cases refused
      exact ⟨rfl, rfl⟩
    · split at refused
      · cases refused
        exact ⟨rfl, rfl⟩
      · contradiction
  · cases refused
    exact ⟨rfl, rfl⟩

private theorem of_fileOperand (refused : fileOperand statement = .error error) :
    error.line = statement.line ∧ error.isLabel = false := by
  rw [fileOperand] at refused
  split at refused
  · cases refused
    exact ⟨rfl, rfl⟩
  · contradiction

/-- A statement fails on its own line, and never for a label. -/
theorem Fails.line_eq (fails : statement.Fails position? error) :
    error.line = statement.line ∧ error.isLabel = false := by
  cases fails with
  | decode => exact ⟨rfl, rfl⟩
  | operand refused =>
    rw [Statement.operand] at refused
    split at refused
    · exact of_cellOperand (map_eq_error_iff.mp refused)
    · exact of_fileOperand (map_eq_error_iff.mp refused)
    all_goals contradiction

end Statement

/-! ## The verdict -/

variable {source : String}

private theorem assemble_of_sound (sound : SoundLabels (labelled (sections source.toList))) :
    assemble source = (statements (sections source.toList)).mapM
      (Statement.instruction (position? (definitions (sections source.toList)))) := by
  rw [assemble, labelError?_eq_none_iff.mpr sound]

/-- A listing is refused for the first wrong label, if there is one. -/
theorem assemble_of_firstLabelError {error : LabelError}
    (first : FirstLabelError (labelled (sections source.toList)) error) :
    assemble source = .error (.label error) := by
  rw [assemble, labelError?_eq_some_iff.mpr first]

/-- No error of a statement is one of labels, so that the first wrong label is the only one to be
refused for. -/
theorem assemble_eq_label_iff {error : LabelError} :
    assemble source = .error (.label error) ↔
      FirstLabelError (labelled (sections source.toList)) error := by
  refine ⟨fun refused => ?_, assemble_of_firstLabelError⟩
  rcases sound_labelled_or (sections source.toList) with sound | ⟨other, first⟩
  · rw [assemble_of_sound sound] at refused
    obtain ⟨-, statement, -, -, -, failed⟩ := mapM_eq_error_iff.mp refused
    have plain := (Statement.instruction_eq_error_iff.mp failed).line_eq.2
    contradiction
  · rw [assemble_of_firstLabelError first] at refused
    cases refused
    exact first

private theorem sound_of_assemble {program : List Instruction}
    (success : assemble source = .ok program) :
    SoundLabels (labelled (sections source.toList)) := by
  refine (sound_labelled_or _).resolve_right ?_
  rintro ⟨error, first⟩
  rw [assemble_of_firstLabelError first] at success
  contradiction

/-- A listing is a program when its labels are sound and each statement is one of its
instructions. -/
theorem assemble_eq_ok_iff {program : List Instruction} :
    assemble source = .ok program ↔
      SoundLabels (labelled (sections source.toList)) ∧
        List.Forall₂ (Statement.Decodes (position? (definitions (sections source.toList))))
          (statements (sections source.toList)) program := by
  have decoded : assemble source = .ok program → SoundLabels (labelled (sections source.toList)) :=
    sound_of_assemble
  rw [← and_iff_right_of_imp decoded]
  apply and_congr_right
  intro sound
  rw [assemble_of_sound sound, mapM_eq_ok_iff]
  simp only [Statement.instruction_eq_ok_iff]

/-- A listing whose labels are sound is refused for the first statement that fails. -/
theorem assemble_eq_error_iff (sound : SoundLabels (labelled (sections source.toList)))
    {error : AssembleError} :
    assemble source = .error error ↔
      ∃ before statement after,
        statements (sections source.toList) = before ++ statement :: after ∧
          (∀ earlier ∈ before, ∃ instruction,
            earlier.Decodes (position? (definitions (sections source.toList))) instruction) ∧
          statement.Fails (position? (definitions (sections source.toList))) error := by
  rw [assemble_of_sound sound, mapM_eq_error_iff]
  simp only [Statement.instruction_eq_ok_iff, Statement.instruction_eq_error_iff]

private theorem exists_assemble_eq_ok_iff :
    (∃ program, assemble source = .ok program) ↔
      SoundLabels (labelled (sections source.toList)) ∧
        ∀ statement ∈ statements (sections source.toList), ∃ instruction,
          statement.Decodes (position? (definitions (sections source.toList))) instruction := by
  constructor
  · rintro ⟨program, assembled⟩
    obtain ⟨sound, decoded⟩ := assemble_eq_ok_iff.mp assembled
    exact ⟨sound, fun statement member => exists_of_forall₂ decoded member⟩
  · rintro ⟨sound, decoded⟩
    cases assembled : assemble source with
    | ok program => exact ⟨program, rfl⟩
    | error error =>
      obtain ⟨before, statement, after, split, -, fails⟩ :=
        (assemble_eq_error_iff sound).mp assembled
      obtain ⟨instruction, decodes⟩ := decoded statement (split ▸ List.mem_append_cons_self)
      exact absurd decodes (fails.not_decodes instruction)

/-- A listing is refused for a wrong label, for a statement that fails, or not at all.

If a label has no name or the name of an earlier one, the error is that of the first such label with
its line, whatever the statements are. If all labels are sound, each is resolved to the number of
statements before the section that defines it; then, if a statement fails, the error is that of the
first that does, with the line that it stands on. So a listing is a program exactly when its labels
are sound and all its statements decode. -/
theorem assemble_verdict (source : String) :
    let pieces := sections source.toList
    let labels := labelled pieces
    let target := position? (definitions pieces)
    IsReading source.toList pieces ∧
      (¬SoundLabels labels →
        ∃ error, FirstLabelError labels error ∧ assemble source = .error (.label error)) ∧
      (SoundLabels labels →
        (∀ label position, target label = some position ↔ Points pieces label position) ∧
        ((∃ statement ∈ statements pieces, ∃ error, statement.Fails target error) →
          ∃ before statement after error, statements pieces = before ++ statement :: after ∧
            (∀ earlier ∈ before, ∃ instruction, earlier.Decodes target instruction) ∧
            statement.Fails target error ∧ error.line = statement.line ∧
            assemble source = .error error)) ∧
      ((∃ program, assemble source = .ok program) ↔
        SoundLabels labels ∧
          ∀ statement ∈ statements pieces,
            ∃ instruction, statement.Decodes target instruction) := by
  intro pieces labels target
  refine ⟨isReading_sections _, fun wrong => ?_, fun sound => ⟨?_, ?_⟩, exists_assemble_eq_ok_iff⟩
  · obtain ⟨error, first⟩ := (sound_labelled_or pieces).resolve_left wrong
    exact ⟨error, first, assemble_of_firstLabelError first⟩
  · exact fun label position => position?_eq_some_iff sound
  · rintro ⟨statement, member, error, fails⟩
    cases assembled : assemble source with
    | ok program =>
      have decoded := (exists_assemble_eq_ok_iff.mp ⟨program, assembled⟩).2
      obtain ⟨instruction, decodes⟩ := decoded statement member
      exact absurd decodes (fails.not_decodes instruction)
    | error other =>
      obtain ⟨before, first, after, split, earlier, failed⟩ :=
        (assemble_eq_error_iff sound).mp assembled
      exact ⟨before, first, after, other, split, earlier, failed, failed.line_eq.1, rfl⟩

/-- A label that is defined again behind a statement that fails, and two statements that fail behind
a jump to a later label. -/
theorem assemble_verdict_samples :
    let again := "jmp\na: b: halt; a: halt"
    let failing := "a: jmp b\nhalt; storeMem 1 # two words\nadd2ax x\nb:"
    (¬SoundLabels (labelled (sections again.toList)) ∧
      FirstLabelError (labelled (sections again.toList)) (.duplicate 2 "a") ∧
      assemble again = .error (.label (.duplicate 2 "a"))) ∧
    (SoundLabels (labelled (sections failing.toList)) ∧
      ∃ before statement after, statements (sections failing.toList) =
        before ++ statement :: after ∧ statement.line = 2 ∧
        assemble failing = .error (.cellShape 2 "storeMem")) := by
  intro again failing
  have wrong : ¬SoundLabels (labelled (sections again.toList)) := by decide +kernel
  have sound : SoundLabels (labelled (sections failing.toList)) := by decide +kernel
  have duplicate : assemble "jmp\na: b: halt; a: halt" = .error (.label (.duplicate 2 "a")) := rfl
  have shape : assemble "a: jmp b\nhalt; storeMem 1 # two words\nadd2ax x\nb:" =
      .error (.cellShape 2 "storeMem") := rfl
  obtain ⟨error, first, refused⟩ := (assemble_verdict again).2.1 wrong
  obtain rfl : error = .duplicate 2 "a" := by
    simpa using Except.error.inj (refused.symm.trans duplicate)
  have fails : ∃ statement ∈ statements (sections failing.toList), ∃ error,
      statement.Fails (position? (definitions (sections failing.toList))) error :=
    ⟨⟨2, "storeMem", ['1']⟩, by decide +kernel, .cellShape 2 "storeMem", .operand rfl⟩
  obtain ⟨before, statement, after, other, split, -, -, line, failed⟩ :=
    ((assemble_verdict failing).2.2.1 sound).2 fails
  obtain rfl : other = .cellShape 2 "storeMem" := Except.error.inj (failed.symm.trans shape)
  exact ⟨⟨wrong, first, refused⟩, sound, before, statement, after, split, line.symm, failed⟩

end RegisterMachine.Listing
