import RegisterMachine.Proofs.Instruction.Canonical
import RegisterMachine.Proofs.Listing.Sections
import RegisterMachine.Proofs.Listing.Verdict

/-! # Where labels lead

A jump whose operand is a single word leads past the statements before a label of that name, if the
listing defines one, before the jump or behind it and whether or not the word is a numeral. Any
other statement is read as if there were no labels. A label that is defined twice is reported where
it first comes again.
-/

namespace RegisterMachine

/-- The place in the program that an instruction leads to. -/
def Instruction.destination? : Instruction → Option Nat
  | setIp address | jumpIf _ address | jump address => some address
  | _ => none

namespace Mnemonic

/-- The mnemonics whose operand is a place in the program. -/
def jumps : List String :=
  ["jmp", "jmpIfEqual", "jmpIfNotEqual", "jmpIfGreater", "jmpIfLess", "copy2ip"]

def takesPlace : Form → Bool
  | .destination _ => true
  | _ => false

private theorem table_takesPlace : ∀ row ∈ table, takesPlace row.2 = true → row.1 ∈ jumps := by
  decide +kernel

private theorem mem_jumps_of_form? {name : String} {make : Nat → Instruction}
    (known : form? name = some (.destination make)) : name ∈ jumps :=
  table_takesPlace _ (mem_of_lookup known) rfl

/-- Each jump makes the instruction that has its name and leads to the place. -/
theorem exists_of_mem_jumps {name : String} (jump : name ∈ jumps) :
    ∃ make, form? name = some (.destination make) ∧ ∀ address,
      (make address).mnemonic = name ∧ (make address).destination? = some address := by
  simp only [jumps, List.mem_cons, List.not_mem_nil, or_false] at jump
  rcases jump with rfl | rfl | rfl | rfl | rfl | rfl
  · exact ⟨.jump, rfl, fun _ => ⟨rfl, rfl⟩⟩
  · exact ⟨.jumpIf .equal, rfl, fun _ => ⟨rfl, rfl⟩⟩
  · exact ⟨.jumpIf .notEqual, rfl, fun _ => ⟨rfl, rfl⟩⟩
  · exact ⟨.jumpIf .greater, rfl, fun _ => ⟨rfl, rfl⟩⟩
  · exact ⟨.jumpIf .less, rfl, fun _ => ⟨rfl, rfl⟩⟩
  · exact ⟨.setIp, rfl, fun _ => ⟨rfl, rfl⟩⟩

end Mnemonic

namespace Listing

open Text

namespace Statement

/-- A statement names a label when it is a jump with the label as its only operand word. -/
structure Names (statement : Statement) (label : String) : Prop where
  jump : statement.mnemonic ∈ Mnemonic.jumps
  word : statement.arguments = [label.toList]

/-- What a statement becomes: a jump that names a label leads where the label points, and any other
statement is the instruction that it would be without labels. -/
structure Becomes (pieces : List Section) (statement : Statement) (instruction : Instruction) :
    Prop where
  named : ∀ label position, statement.Names label → Points pieces label position →
    instruction.mnemonic = statement.mnemonic ∧ instruction.destination? = some position
  plain : (∀ label position, statement.Names label → ¬Points pieces label position) →
    statement.instruction (fun _ => none) = .ok instruction

variable {position? : String → Option Nat} {statement : Statement} {instruction : Instruction}

/-- A jump that names a label leads to the label's position. -/
theorem Names.leads {label : String} {position : Nat} (names : statement.Names label)
    (resolved : position? label = some position) (room : position < 2 ^ 63)
    (decodes : statement.Decodes position? instruction) :
    instruction.mnemonic = statement.mnemonic ∧ instruction.destination? = some position := by
  obtain ⟨make, known, made⟩ := Mnemonic.exists_of_mem_jumps names.jump
  obtain ⟨operand, built, decoded⟩ := decodes
  rw [Statement.operand, known, names.word] at built
  simp only [destinationOperand, String.ofList_toList, resolved] at built
  cases built
  rw [Instruction.decode, known] at decoded
  simp only [Form.read, Operand.address?, Operand.integer?, bind, Except.bind,
    Word.index?_ofNat room] at decoded
  cases decoded
  exact made position

/-- Labels that a statement does not name have no say in it. -/
theorem instruction_of_unnamed
    (unnamed : ∀ label, statement.Names label → position? label = none) :
    statement.instruction position? = statement.instruction fun _ => none := by
  suffices same : statement.operand position? = statement.operand fun _ => none by
    rw [Statement.instruction, Statement.instruction, same]
  rw [Statement.operand, Statement.operand]
  cases known : Mnemonic.form? statement.mnemonic with
  | none => rfl
  | some form =>
    cases form with
    | destination make =>
      refine congrArg Except.ok ?_
      cases word : statement.arguments with
      | nil => rfl
      | cons label others =>
        cases others with
        | nil =>
          have names : statement.Names (String.ofList label) :=
            ⟨Mnemonic.mem_jumps_of_form? known, by rw [word, String.toList_ofList]⟩
          rw [destinationOperand, destinationOperand, unnamed _ names]
        | cons second others => rfl
    | _ => rfl

end Statement

/-! ## Positions -/

private theorem length_chunksFrom_le (quoted : Bool) (line : List Char) :
    (chunksFrom quoted line).length ≤ line.length + 1 := by
  induction line generalizing quoted with
  | nil => exact Nat.le_refl 1
  | cons c rest ih =>
    rw [List.length_cons]
    rcases chunksFrom_cases quoted c with ⟨rfl, rfl | rfl⟩ | stays
    · exact Nat.succ_le_succ (ih false)
    · exact Nat.le_add_left 1 _
    · have most := ih (opened quoted c)
      rw [stays]
      cases cut : chunksFrom (opened quoted c) rest with
      | nil =>
        rw [extend, List.length_singleton]
        omega
      | cons piece others =>
        rw [cut, List.length_cons] at most
        rw [extend, List.length_cons]
        omega

/-- The length of lines with one more character for the end of each. -/
def extent (ls : List (List Char)) : Nat := (ls.map fun line => line.length + 1).sum

private theorem extent_pieces (separates : Char → Bool) (text : List Char) :
    extent (pieces separates text) = text.length + 1 := by
  induction text with
  | nil => rfl
  | cons c rest ih =>
    rw [pieces]
    split
    · rw [extent, List.map_cons, List.sum_cons, ← extent, ih, List.length_cons]
      exact Nat.add_comm 1 _
    · obtain ⟨piece, others, start⟩ := List.exists_cons_of_ne_nil (pieces_ne_nil separates rest)
      rw [start] at ih ⊢
      simp only [extent, List.map_cons, List.sum_cons, List.length_cons] at ih ⊢
      omega

private theorem extent_linesOfPieces_le (ps : List (List Char)) :
    extent (linesOfPieces ps) ≤ extent ps := by
  induction ps with
  | nil => exact Nat.le_refl 0
  | cons piece others ih =>
    cases others with
    | nil =>
      rw [linesOfPieces]
      split
      · exact Nat.zero_le _
      · exact Nat.le_refl _
    | cons second others =>
      have shorter : (dropReturn piece).length ≤ piece.length := by
        rw [dropReturn]
        split
        · exact (List.dropLast_sublist piece).length_le
        · exact Nat.le_refl _
      rw [linesOfPieces]
      · simp only [extent, List.map_cons, List.sum_cons] at ih ⊢
        omega
      · exact List.cons_ne_nil second others

private theorem length_sections_lines_le (ls : List (List Char)) (number : Nat) :
    ((ls.zipIdx number).flatMap fun (line, number) =>
      (chunks line).map (Section.ofChunk number)).length ≤ extent ls := by
  induction ls generalizing number with
  | nil => exact Nat.le_refl 0
  | cons line others ih =>
    have first := length_chunksFrom_le false line
    have later := ih (number + 1)
    simp only [List.zipIdx_cons, List.flatMap_cons, List.length_append, List.length_map, extent,
      List.map_cons, List.sum_cons, chunks] at first later ⊢
    omega

/-- A listing has at most one section more than characters. -/
theorem length_sections_le (text : List Char) : (sections text).length ≤ text.length + 1 :=
  calc
    (sections text).length ≤ extent (lines text) := length_sections_lines_le (lines text) 1
    _ ≤ extent (pieces (· == '\n') text) := extent_linesOfPieces_le _
    _ = text.length + 1 := extent_pieces _ text

section Pieces

variable {pieces : List Section} {label : String} {position : Nat}

private theorem Points.le_statements (points : Points pieces label position) :
    position ≤ (statements pieces).length := by
  obtain ⟨before, piece, after, rfl, -, rfl⟩ := points
  rw [statements, statements, List.filterMap_append, List.length_append]
  exact Nat.le_add_right _ _

private theorem Points.lt_length (points : Points pieces label position) :
    position < pieces.length := by
  obtain ⟨before, piece, after, rfl, -, rfl⟩ := points
  have fewer : (statements before).length ≤ before.length := List.length_filterMap_le _ _
  rw [List.length_append, List.length_cons]
  omega

end Pieces

/-! ## Programs and their labels -/

variable {source : String} {program : List Instruction}

private theorem position_le_of_assemble (success : assemble source = .ok program) {label : String}
    {position : Nat} (points : Points (sections source.toList) label position) :
    position ≤ program.length :=
  (assemble_eq_ok_iff.mp success).2.length_eq ▸ points.le_statements

/-- Every statement of a listing of no more characters than a word can count becomes an instruction,
in order. -/
theorem becomes_of_assemble (fits : source.length < 2 ^ 63)
    (success : assemble source = .ok program) :
    List.Forall₂ (Statement.Becomes (sections source.toList)) (statements (sections source.toList))
      program := by
  obtain ⟨sound, decoded⟩ := assemble_eq_ok_iff.mp success
  refine decoded.imp fun statement instruction decodes => ⟨?_, ?_⟩
  · intro label position names points
    have inside := points.lt_length
    have most := length_sections_le source.toList
    rw [String.length_toList] at most
    exact names.leads ((position?_eq_some_iff sound).mpr points) (by omega) decodes
  · intro nowhere
    rw [← Statement.instruction_of_unnamed, Statement.instruction_eq_ok_iff]
    · exact decodes
    · intro label names
      rw [Option.eq_none_iff_forall_not_mem]
      intro position resolved
      exact nowhere label position names ((position?_eq_some_iff sound).mp resolved)

/-- A label is reported to be defined twice exactly where it is the first one to come again and no
label without a name comes before it. -/
theorem assemble_eq_duplicate_iff {line : Nat} {name : String} :
    assemble source = .error (.label (.duplicate line name)) ↔
      ∃ before after, labelled (sections source.toList) = before ++ (line, name) :: after ∧
        SoundLabels before ∧ name ∈ before.map Prod.snd := by
  rw [assemble_eq_label_iff, firstLabelError_iff]
  constructor
  · rintro ⟨before, line, name, after, split, sound, ⟨-, other⟩ | ⟨again, same⟩⟩
    · contradiction
    · cases same
      exact ⟨before, after, split, sound, again⟩
  · rintro ⟨before, after, split, sound, again⟩
    exact ⟨before, line, name, after, split, sound, .inr ⟨again, rfl⟩⟩

/-- Where every label without a name comes behind one that repeats another, repeated labels are
reported. -/
theorem exists_duplicate_iff
    (named : ∀ before line after,
      labelled (sections source.toList) = before ++ (line, "") :: after →
        ¬(before.map Prod.snd).Nodup) :
    (∃ line name, assemble source = .error (.label (.duplicate line name))) ↔
      ¬((labelled (sections source.toList)).map Prod.snd).Nodup := by
  constructor
  · rintro ⟨line, name, refused⟩ distinct
    obtain ⟨before, after, split, -, again⟩ := assemble_eq_duplicate_iff.mp refused
    rw [split, List.map_append, List.map_cons, List.nodup_middle, List.nodup_cons] at distinct
    exact distinct.1 (List.mem_append_left _ again)
  · intro repeated
    have wrong : ¬SoundLabels (labelled (sections source.toList)) :=
      fun sound => repeated sound.distinct
    obtain ⟨error, first⟩ := (sound_labelled_or _).resolve_left wrong
    obtain ⟨before, line, name, after, split, sound, ⟨rfl, -⟩ | ⟨-, rfl⟩⟩ :=
      firstLabelError_iff.mp first
    · exact absurd sound.distinct (named before line after split)
    · exact ⟨line, name, assemble_of_firstLabelError first⟩

/-- Labels are resolved to the statements that they stand before. Every statement of a listing that
is a program becomes one instruction, in order: a jump whose operand is one word and a label of the
listing leads past the statements before that label, which is no place beyond the program's end, and
all other statements are read as if there were no labels. A listing is refused for a label that is
defined twice exactly where one is, unless a label without a name comes first; the line is that of
the first definition that repeats an earlier one.

A place is held in a signed word, and a text that a machine holds has fewer characters than such a
word can count, so the bound on the length excludes no listing. -/
theorem labels_resolved (source : String) :
    let pieces := sections source.toList
    let labels := labelled pieces
    IsReading source.toList pieces ∧
      (∀ program, assemble source = .ok program →
        (∀ label position, Points pieces label position → position ≤ program.length) ∧
        (source.length < 2 ^ 63 →
          List.Forall₂ (Statement.Becomes pieces) (statements pieces) program)) ∧
      (∀ line name, assemble source = .error (.label (.duplicate line name)) ↔
        ∃ before after, labels = before ++ (line, name) :: after ∧ SoundLabels before ∧
          name ∈ before.map Prod.snd) ∧
      ((∀ before line after, labels = before ++ (line, "") :: after →
          ¬(before.map Prod.snd).Nodup) →
        ((∃ line name, assemble source = .error (.label (.duplicate line name))) ↔
          ¬(labels.map Prod.snd).Nodup)) := by
  intro pieces labels
  refine ⟨isReading_sections _, fun program success => ⟨?_, ?_⟩, ?_, exists_duplicate_iff⟩
  · exact fun label position => position_le_of_assemble success
  · exact fun fits => becomes_of_assemble fits success
  · exact fun line name => assemble_eq_duplicate_iff

/-- Jumps to a later label, to one that is a numeral and to one of two labels at a place, beside a
numeral that is no jump's; and a label that is defined again on the second line. -/
theorem labels_resolved_samples :
    let resolved := "5: jmp end; 7: again:\n jmp 5 # back\nadd2ax 5; jmpIfEqual 7\r\n; end:"
    let repeated := "a: halt; b:\na: halt; b:"
    (resolved.length < 2 ^ 63 ∧
      ∃ program, assemble resolved = .ok program ∧
        program.map Instruction.destination? = [some 4, some 0, none, some 1] ∧
        (∀ label position, Points (sections resolved.toList) label position → position ≤ 4) ∧
        List.Forall₂ (Statement.Becomes (sections resolved.toList))
          (statements (sections resolved.toList)) program) ∧
    ((∃ line name, assemble repeated = .error (.label (.duplicate line name))) ∧
      ∃ before after, labelled (sections repeated.toList) = before ++ (2, "a") :: after ∧
        SoundLabels before ∧ "a" ∈ before.map Prod.snd) := by
  intro resolved repeated
  have fits : resolved.length < 2 ^ 63 := by decide
  have success :
      assemble "5: jmp end; 7: again:\n jmp 5 # back\nadd2ax 5; jmpIfEqual 7\r\n; end:" =
        .ok [.jump 4, .jump 0, .arithmetic .add .ax 5, .jumpIf .equal 1] := rfl
  have duplicate : assemble "a: halt; b:\na: halt; b:" = .error (.label (.duplicate 2 "a")) := rfl
  have named : ∀ label ∈ labelled (sections repeated.toList), label.2 ≠ "" := by decide +kernel
  have again : ¬((labelled (sections repeated.toList)).map Prod.snd).Nodup := by decide +kernel
  obtain ⟨-, kept, -, -⟩ := labels_resolved resolved
  obtain ⟨inside, become⟩ := kept _ success
  obtain ⟨-, -, first, reported⟩ := labels_resolved repeated
  refine ⟨⟨fits, _, success, rfl, inside, become fits⟩, (reported ?_).mpr again,
    (first 2 "a").mp duplicate⟩
  intro before line after split
  exact absurd rfl (named (line, "") (split ▸ List.mem_append_cons_self))

end Listing

end RegisterMachine
