import RegisterMachine.Proofs.Listing.Reassembly

/-! # Programs that a listing can hold

A listing can hold every decoded program whose strings are safe in it: names are words or phrases
without quotes, comment marks and separators, a content has neither quotes nor line feeds, and the
operand of a learnt mnemonic is not spelled like an operand of another kind. Contents may hold any
marks and any blanks, because they are written in quotes where a listing would change them.
-/

namespace RegisterMachine

open Text

namespace Listing

/-- A text without any character that a listing gives a meaning of its own. -/
def IsClean (text : List Char) : Prop := '"' ∉ text ∧ '#' ∉ text ∧ ';' ∉ text

instance : DecidablePred IsClean := fun text =>
  inferInstanceAs (Decidable ('"' ∉ text ∧ '#' ∉ text ∧ ';' ∉ text))

private theorem IsClean.marks_eq_zero {text : List Char} (clean : IsClean text) :
    marks text = 0 := by
  obtain ⟨-, hash, semicolon⟩ := clean
  rw [marks, List.countP_eq_zero]
  intro c member mark
  rcases Bool.or_eq_true_iff.mp mark with same | same
  · exact semicolon (eq_of_beq same ▸ member)
  · exact hash (eq_of_beq same ▸ member)

end Listing

/-- Whether the operand of a learnt mnemonic can be written in a listing: its text is then not
spelled like a number. -/
def Operand.TextSafe : Option Operand → Prop
  | none | some (.integer _) => True
  | some (.text spelling) =>
    IsPhrase spelling.toList ∧ Listing.IsClean spelling.toList ∧
      ¬(IsWord spelling.toList ∧ (word? spelling.toList).isSome)
  | some (.cell ..) | some (.file ..) => False

namespace Instruction

/-- Whether the strings of an instruction can be written in a listing. -/
def TextSafe : Instruction → Prop
  | makeDirectory name | changeDirectory name | readFile name | remove name =>
    IsPhrase name.toList ∧ Listing.IsClean name.toList
  | writeFile name content =>
    (IsWord name.toList ∧ Listing.IsClean name.toList) ∧
      '"' ∉ content.toList ∧ '\n' ∉ content.toList
  | other name operand =>
    (IsWord name.toList ∧ Listing.IsClean name.toList ∧ name.toList.getLast? ≠ some ':') ∧
      Operand.TextSafe operand
  | _ => True

end Instruction

/-! ## Learnt mnemonics -/

namespace Operand

variable {operand : Option Operand}

/-- A safe operand is made again by its own words. -/
theorem TextSafe.plainOperand_words (safe : TextSafe operand) :
    Listing.plainOperand (words (textOf operand)) = operand := by
  cases operand with
  | none => rfl
  | some operand =>
    cases operand with
    | integer value =>
      rw [textOf, written, words_eq_singleton (isWord_toString value),
        Listing.plainOperand_toString]
    | text spelling =>
      obtain ⟨phrase, -, notNumeral⟩ := safe
      have joined := Listing.nameOperand_words phrase
      rw [textOf, written]
      -- Several words are joined as they are for a name; a single one must not be a number.
      rcases found : words spelling.toList with _ | ⟨word, _ | ⟨second, others⟩⟩
      · exact absurd found phrase.words_ne_nil
      · have squeezed := phrase.2
        rw [squeeze, found, unwords_singleton] at squeezed
        have isWord : IsWord word := isWord_of_mem_words (found ▸ List.mem_singleton_self word)
        have unread : word? spelling.toList = none := by
          rw [squeezed] at isWord
          simpa [isWord] using notNumeral
        rw [Listing.plainOperand, Listing.scalar, squeezed, unread, String.ofList_toList]
      · rw [found] at joined
        exact joined
    | cell address register => contradiction
    | file name content => contradiction

private theorem TextSafe.marks_eq_zero (safe : TextSafe operand) :
    Listing.marks (textOf operand) = 0 := by
  cases operand with
  | none => rfl
  | some operand =>
    cases operand with
    | integer value =>
      have unmarked := (Listing.unmarked_toString value).marks_unwords
      rwa [unwords_singleton] at unmarked
    | text spelling => exact safe.2.1.marks_eq_zero
    | cell address register => contradiction
    | file name content => contradiction

end Operand

/-! ## Lines of one statement -/

namespace Listing

private theorem isOneStatement_of_marks_eq_zero {line : List Char} (none : marks line = 0) :
    IsOneStatement line := by
  rintro before mark after rfl marked
  rw [marks, List.countP_eq_zero] at none
  exact absurd marked (none mark (by simp))

/-- A text without quotes leaves the rest of a line as it is where a quote is open, and where the
text has no marks. -/
theorem quotesMarks_append {quoted : Bool} {text : List Char} (free : '"' ∉ text)
    (hidden : quoted = true ∨ marks text = 0) (rest : List Char) :
    quotesMarks quoted (text ++ rest) = quotesMarks quoted rest := by
  induction text with
  | nil => rfl
  | cons c text ih =>
    rw [List.mem_cons, not_or] at free
    have plain : (quoted || !isMark c) = true := by
      rcases hidden with rfl | none
      · rfl
      · rw [marks, List.countP_eq_zero] at none
        have unmarked := none c List.mem_cons_self
        simp [unmarked]
    have later : quoted = true ∨ marks text = 0 := by
      refine hidden.imp_right fun none => ?_
      rw [← List.singleton_append, marks_append] at none
      omega
    rw [List.cons_append, quotesMarks, if_neg (Ne.symm free.1), plain, Bool.true_and,
      ih free.2 later]

/-- Quotes around a text without quotes hide its marks. -/
theorem isOneStatement_quoted {before content : List Char} (clean : IsClean before)
    (free : '"' ∉ content) : IsOneStatement (before ++ '"' :: (content ++ ['"'])) := by
  rw [← quotesMarks_false_iff, quotesMarks_append clean.1 (.inr clean.marks_eq_zero), quotesMarks,
    if_pos rfl, Bool.not_false, quotesMarks_append free (.inl rfl)]
  rfl

private theorem isOneStatement_file {name content : String} (clean : IsClean name.toList)
    (free : '"' ∉ content.toList) :
    IsOneStatement (Instruction.writeFile name content).written.toList := by
  rw [Instruction.toList_written]
  show IsOneStatement ("write".toList ++ ' ' :: (Operand.file name content).written.toList)
  rw [Operand.written]
  cases plain : isPlainContent content.toList with
  | true =>
    -- Content that is written as it is has no marks at all.
    have unmarked : marks content.toList = 0 := by
      rw [isPlainContent, Bool.and_eq_true, Bool.not_eq_true', List.any_eq_false] at plain
      rw [marks, List.countP_eq_zero]
      intro c member mark
      have absent := plain.1 c member
      rcases Bool.or_eq_true_iff.mp mark with same | same <;> simp [same] at absent
    apply isOneStatement_of_marks_eq_zero
    rw [if_pos rfl]
    show marks ("write".toList ++ ' ' :: (name ++ " " ++ content).toList) = 0
    rw [toList_spaced, marks_append, marks_cons_of_not_isMark (by decide),
      marks_append, marks_cons_of_not_isMark (by decide), clean.marks_eq_zero, unmarked]
    rfl
  | false =>
    have before : IsClean ("write ".toList ++ name.toList ++ [' ']) := by
      obtain ⟨quote, hash, semicolon⟩ := clean
      simp [IsClean, quote, hash, semicolon]
    have quoted := isOneStatement_quoted before free
    rw [if_neg Bool.false_ne_true]
    show IsOneStatement ("write".toList ++ ' ' :: (name ++ " \"" ++ content ++ "\"").toList)
    rw [toList_quoted]
    simpa using quoted

end Listing

/-! ## Safe programs -/

namespace Instruction

variable {instruction : Instruction}

/-- Safe strings survive being written. -/
theorem TextSafe.spelled (safe : instruction.TextSafe) : instruction.Spelled := by
  cases instruction with
  | makeDirectory name | changeDirectory name | readFile name | remove name => exact safe.1
  | writeFile name content => exact ⟨safe.1.1, safe.2.2⟩
  | other name operand =>
    exact ⟨safe.1.1, beq_eq_false_iff_ne.mpr safe.1.2.2, safe.2.plainOperand_words⟩
  | _ => trivial

/-- The line of an instruction with safe strings is one statement. -/
theorem TextSafe.isOneStatement (safe : instruction.TextSafe)
    (canonical : instruction.Canonical) :
    Listing.IsOneStatement instruction.written.toList := by
  have unmarked (operand : Listing.marks (Operand.textOf instruction.operand) = 0) {form : Form}
      (known : instruction.form? = some form) :
      Listing.IsOneStatement instruction.written.toList := by
    apply Listing.isOneStatement_of_marks_eq_zero
    rw [Listing.marks_written, Listing.marks_mnemonic canonical known, operand]
  cases instruction with
  | makeDirectory name | changeDirectory name | readFile name | remove name =>
    exact unmarked safe.2.marks_eq_zero rfl
  | writeFile name content => exact Listing.isOneStatement_file safe.1.2 safe.2.1
  | other name operand =>
    apply Listing.isOneStatement_of_marks_eq_zero
    rw [Listing.marks_written]
    show Listing.marks name.toList + Listing.marks (Operand.textOf operand) = 0
    rw [safe.1.2.1.marks_eq_zero, safe.2.marks_eq_zero]
  | _ =>
    obtain ⟨ws, written, free⟩ :=
      Listing.exists_unmarked (takes_of_form? canonical rfl) (by simp) (by simp)
    exact unmarked (written ▸ free.marks_unwords) rfl

end Instruction

namespace Listing

/-- A decoded program with safe strings is given back by its listing. -/
theorem assemble_ofProgram_of_textSafe {program : List Instruction}
    (decoded : ∀ instruction ∈ program, ∃ mnemonic operand,
      Instruction.decode mnemonic operand = .ok instruction)
    (safe : ∀ instruction ∈ program, instruction.TextSafe) :
    assemble (ofProgram program) = .ok program := by
  have canonical : ∀ instruction ∈ program, instruction.Canonical := by
    intro instruction member
    obtain ⟨mnemonic, operand, success⟩ := decoded instruction member
    exact Instruction.canonical_of_decode success
  apply assemble_ofProgram
  · intro instruction member
    exact ⟨canonical instruction member, (safe instruction member).spelled⟩
  · intro instruction member
    exact (safe instruction member).isOneStatement (canonical instruction member)

/-- A content with marks and a run of blanks, a name that is a numeral with leading zeros, and a
learnt mnemonic whose operand has several words. -/
theorem assemble_ofProgram_marks :
    let program : List Instruction :=
      [.writeFile "log" "a  #1; b ", .readFile "007", .other "a:b" (some (.text "1 2")),
        .load .stackPointer (-3)]
    ofProgram program = "write log \"a  #1; b \"\nread 007\na:b 1 2\ncopy2sp -3" ∧
      (∀ instruction ∈ program, instruction.TextSafe) ∧
      assemble (ofProgram program) = .ok program := by
  intro program
  have decoded : ∀ instruction ∈ program, ∃ mnemonic operand,
      Instruction.decode mnemonic operand = .ok instruction := by
    simp only [program, List.forall_mem_cons]
    exact ⟨⟨"write", some (.file "log" "a  #1; b "), rfl⟩, ⟨"read", some (.text "007"), rfl⟩,
      ⟨"a:b", some (.text "1 2"), rfl⟩, ⟨"copy2sp", some (.text "-3"), rfl⟩,
      List.forall_mem_nil _⟩
  have safe : ∀ instruction ∈ program, instruction.TextSafe := by
    simp only [program, List.forall_mem_cons]
    refine ⟨⟨?_, ?_⟩, ⟨?_, ?_⟩, ⟨?_, ?_, ?_, ?_⟩, trivial, List.forall_mem_nil _⟩
    all_goals decide
  exact ⟨rfl, safe, assemble_ofProgram_of_textSafe decoded safe⟩

end Listing

end RegisterMachine
