import RegisterMachine.Proofs.Listing.Operands

/-! # Instructions that listings hold

A listing can hold a canonical instruction whose strings survive being written: names are words, or
phrases where a name may have several, file contents keep to one line, and the operand of a learnt
mnemonic is what its own words make. Such an instruction is written on one line, and the statement
of that line has the instruction's mnemonic and operand.
-/

namespace RegisterMachine

open Text

namespace Mnemonic

/-- Every built-in mnemonic is made of letters and digits. -/
theorem table_alphanumeric :
    ∀ row ∈ table, row.1 ≠ "" ∧ row.1.toList.all Char.isAlphanum = true := by
  decide +kernel

end Mnemonic

namespace Instruction

/-- Whether the strings of an instruction survive being written. -/
def Spelled : Instruction → Prop
  | makeDirectory name | changeDirectory name | readFile name | remove name => IsPhrase name.toList
  | writeFile name content => IsWord name.toList ∧ '\n' ∉ content.toList
  | other name operand =>
    IsWord name.toList ∧ Listing.isLabel name.toList = false ∧
      Listing.plainOperand (words (Operand.textOf operand)) = operand
  | _ => True

/-- An instruction that a listing can hold. -/
structure Listed (instruction : Instruction) : Prop where
  canonical : instruction.Canonical
  spelled : instruction.Spelled

/-! ## Spelling by form -/

section Forms

variable {instruction : Instruction}

private theorem exists_of_form?_eq_none (known : instruction.form? = none) :
    ∃ name operand, instruction = .other name operand := by
  cases instruction <;> cases known
  exact ⟨_, _, rfl⟩

theorem name_of_form? {make : String → Instruction} (known : instruction.form? = some (.name make))
    {name : String} (made : instruction = make name) :
    instruction.operand = some (.text name) ∧
      (instruction.Spelled ↔ IsPhrase name.toList) := by
  cases instruction <;> cases known <;> cases made <;> exact ⟨rfl, Iff.rfl⟩

theorem file_of_form? {make : String → String → Instruction}
    (known : instruction.form? = some (.file make)) {name content : String}
    (made : instruction = make name content) : instruction = .writeFile name content := by
  cases instruction <;> cases known
  exact made

/-- Only names, files and learnt operands are strings of the programmer's. -/
theorem spelled_of_form? {form : Form} (known : instruction.form? = some form)
    (notName : ¬∃ make, form = .name make) (notFile : ¬∃ make, form = .file make) :
    instruction.Spelled := by
  cases instruction <;> cases known
  case makeDirectory | changeDirectory | readFile | remove => exact absurd ⟨_, rfl⟩ notName
  case writeFile => exact absurd ⟨_, rfl⟩ notFile
  all_goals trivial

theorem isAlphanum_mnemonic (canonical : instruction.Canonical) {form : Form}
    (known : instruction.form? = some form) :
    instruction.mnemonic.toList ≠ [] ∧
      ∀ c ∈ instruction.mnemonic.toList, c.isAlphanum = true := by
  obtain ⟨nonempty, plain⟩ := Mnemonic.table_alphanumeric _ (mem_table_of_form? canonical known)
  exact ⟨mt String.toList_eq_nil_iff.mp nonempty, List.all_eq_true.mp plain⟩

/-- The mnemonic of an instruction that a listing can hold is a word that is no label. -/
theorem Listed.mnemonic (listed : instruction.Listed) :
    IsWord instruction.mnemonic.toList ∧ Listing.isLabel instruction.mnemonic.toList = false := by
  cases known : instruction.form? with
  | some form =>
    obtain ⟨nonempty, plain⟩ := isAlphanum_mnemonic listed.canonical known
    refine ⟨⟨nonempty, fun c member => isBlank_of_isAlphanum (plain c member)⟩, ?_⟩
    rw [Listing.isLabel, beq_eq_false_iff_ne]
    intro colon
    have letter := plain ':' (List.mem_of_getLast? colon)
    contradiction
  | none =>
    obtain ⟨name, operand, rfl⟩ := exists_of_form?_eq_none known
    exact ⟨listed.spelled.1, listed.spelled.2.1⟩

end Forms

/-! ## Written lines -/

def writtenTail (instruction : Instruction) : List Char :=
  match instruction.operand with
  | some operand => ' ' :: operand.written.toList
  | none => []

theorem toList_written (instruction : Instruction) :
    instruction.written.toList = instruction.mnemonic.toList ++ instruction.writtenTail := by
  rw [written, writtenTail]
  cases instruction.operand with
  | none => exact (List.append_nil _).symm
  | some operand => exact Listing.toList_spaced _ _

private theorem endsWord_writtenTail (instruction : Instruction) :
    EndsWord instruction.writtenTail := by
  rw [writtenTail]
  cases instruction.operand with
  | none => exact fun _ none => absurd none (by simp)
  | some operand => exact endsWord_cons (by decide) _

theorem trim_writtenTail (instruction : Instruction) :
    trim instruction.writtenTail = trim (Operand.textOf instruction.operand) := by
  rw [writtenTail]
  cases instruction.operand with
  | none => rfl
  | some operand => exact trim_cons_blank (by decide) _

/-- The operand of an instruction that a listing can hold keeps to its line. -/
theorem Listed.isLine_textOf {instruction : Instruction} (listed : instruction.Listed) :
    Operand.textOf instruction.operand = [] ∨ IsLine (Operand.textOf instruction.operand) := by
  cases known : instruction.form? with
  | none =>
    obtain ⟨name, operand, rfl⟩ := exists_of_form?_eq_none known
    have all : ∀ word ∈ words (Operand.textOf operand), IsWord word :=
      fun _ => isWord_of_mem_words
    have line := Listing.isLine_plainOperand all
    rwa [listed.spelled.2.2] at line
  | some form =>
    have takes := takes_of_form? listed.canonical known
    by_cases isName : ∃ make, form = .name make
    · obtain ⟨make, rfl⟩ := isName
      obtain ⟨name, made, operand⟩ := takes
      have phrase := (name_of_form? known made).2.mp listed.spelled
      rw [operand]
      exact .inr (isLine_of_isPhrase phrase)
    · by_cases isFile : ∃ make, form = .file make
      · obtain ⟨make, rfl⟩ := isFile
        obtain ⟨name, content, made, -⟩ := takes
        obtain rfl := file_of_form? known made
        exact .inr (Listing.isLine_file listed.spelled.1 listed.spelled.2)
      · obtain ⟨ws, written, unmarked⟩ := Listing.exists_unmarked takes isName isFile
        rw [written]
        by_cases empty : ws = []
        · rw [empty]
          exact .inl rfl
        · exact .inr (isLine_unwords (fun word member => (unmarked word member).1) empty)

theorem isLine_written {instruction : Instruction} (listed : instruction.Listed) :
    IsLine instruction.written.toList := by
  have isWord := listed.mnemonic.1
  have line := listed.isLine_textOf
  rw [toList_written, writtenTail]
  cases beside : instruction.operand with
  | none =>
    rw [List.append_nil]
    exact isLine_of_isWord isWord
  | some operand =>
    rw [beside] at line
    exact isLine_spaced isWord line

end Instruction

/-! ## Statements of written instructions -/

namespace Listing

/-- The statement of an instruction that a listing holds. -/
def statementOf (line : Nat) (instruction : Instruction) : Statement :=
  ⟨line, instruction.mnemonic, trim (Operand.textOf instruction.operand)⟩

private theorem arguments_statementOf (line : Nat) (instruction : Instruction) :
    (statementOf line instruction).arguments = words (Operand.textOf instruction.operand) :=
  words_trim _

/-- The statement of an instruction that a listing holds has the instruction's operand. -/
theorem operand_statementOf {instruction : Instruction} (listed : instruction.Listed) (line : Nat) :
    (statementOf line instruction).operand (fun _ => none) = .ok instruction.operand := by
  have form : Mnemonic.form? (statementOf line instruction).mnemonic = instruction.form? :=
    Instruction.form?_mnemonic listed.canonical
  have integer {value : Word} (operand : instruction.operand = some (.integer value)) :
      words (Operand.textOf instruction.operand) = [(toString value).toList] := by
    rw [operand]
    exact words_eq_singleton (isWord_toString value)
  rw [Statement.operand, form, arguments_statementOf]
  cases known : instruction.form? with
  | none =>
    obtain ⟨name, operand, rfl⟩ := Instruction.exists_of_form?_eq_none known
    exact congrArg Except.ok listed.spelled.2.2
  | some form =>
    have takes := Instruction.takes_of_form? listed.canonical known
    cases form with
    | bare made =>
      rw [takes.2]
      rfl
    | integer make =>
      obtain ⟨value, -, operand⟩ := takes
      rw [integer operand, operand]
      exact congrArg Except.ok (plainOperand_toString value)
    | destination make | distance make =>
      obtain ⟨address, -, -, operand⟩ := takes
      rw [integer operand, operand]
      exact congrArg Except.ok (plainOperand_toString (Int64.ofNat address))
    | name make =>
      obtain ⟨name, made, operand⟩ := takes
      have phrase := (Instruction.name_of_form? known made).2.mp listed.spelled
      rw [operand]
      exact congrArg Except.ok (nameOperand_words phrase)
    | register make =>
      obtain ⟨register, -, operand⟩ := takes
      have isWord := (unmarked_name register _ List.mem_cons_self).1
      rw [operand]
      exact congrArg Except.ok (nameOperand_words (isPhrase_of_isWord isWord))
    | cell make =>
      obtain ⟨address, register, -, operand⟩ := takes
      have arguments : (statementOf line instruction).arguments =
          [(toString address).toList, register.name.toList] := by
        rw [arguments_statementOf, operand, Operand.textOf, toList_cell]
        exact words_unwords fun word member => (unmarked_cell address register word member).1
      rw [operand]
      simp only [cellOperand, arguments, word?_toString, String.ofList_toList,
        Register.ofName?_name]
      rfl
    | file make =>
      obtain ⟨name, content, made, -⟩ := takes
      obtain rfl := Instruction.file_of_form? known made
      have rest : (statementOf line (.writeFile name content)).rest =
          trim (Operand.file name content).written.toList := rfl
      exact congrArg (Except.map some) (fileOperand_of_written listed.spelled.1 rest)

/-- The statement of an instruction that a listing holds is read as the instruction. -/
theorem instruction_statementOf {instruction : Instruction} (listed : instruction.Listed)
    (line : Nat) :
    (statementOf line instruction).instruction (fun _ => none) = .ok instruction := by
  have decoded : Instruction.decode (statementOf line instruction).mnemonic instruction.operand =
      .ok instruction := Instruction.decode_mnemonic_operand listed.canonical
  rw [Statement.instruction, operand_statementOf listed line]
  simp only [bind, Except.bind, decoded]
  rfl

/-- A chunk that begins with a word which is no label is a statement of that mnemonic. -/
theorem ofChunk_append {word tail : List Char} (isWord : IsWord word)
    (plain : isLabel word = false) (ends : EndsWord tail) (line : Nat) :
    Section.ofChunk line (word ++ tail) =
      ⟨line, [], some ⟨line, String.ofList word, trim tail⟩⟩ := by
  have labels : labelWords (word ++ tail) = [] := by
    rw [labelWords, words_append isWord ends, List.takeWhile_cons, plain]
    rfl
  rw [Section.ofChunk, labels]
  simp only [List.length_nil, afterWords, firstWord?_append isWord ends, Option.map_some,
    List.map_nil]

/-- The line of an instruction that a listing holds is one statement without labels. -/
theorem ofChunk_written {instruction : Instruction} (listed : instruction.Listed) (line : Nat) :
    Section.ofChunk line instruction.written.toList =
      ⟨line, [], some (statementOf line instruction)⟩ := by
  obtain ⟨isWord, plain⟩ := listed.mnemonic
  rw [instruction.toList_written, ofChunk_append isWord plain instruction.endsWord_writtenTail,
    instruction.trim_writtenTail, String.ofList_toList]
  rfl

end Listing

end RegisterMachine
