import RegisterMachine.Listing.Assemble
import RegisterMachine.Proofs.Instruction.Canonical
import RegisterMachine.Proofs.Listing.Sections
import RegisterMachine.Proofs.Text.Numeral

/-! # Operands in a listing

Numbers, registers and cells are written as words without marks, and a file's content as it is or in
quotes. The words of a written operand make the operand again, and the text behind a file's name is
read back as the content.
-/

namespace RegisterMachine

open Text

/-- What is written for an operand, if there is one. -/
def Operand.textOf : Option Operand → List Char
  | some operand => operand.written.toList
  | none => []

namespace Listing

theorem toList_spaced (left right : String) :
    (left ++ " " ++ right).toList = left.toList ++ ' ' :: right.toList := by
  rw [String.toList_append, String.toList_append, List.append_assoc]
  rfl

theorem toList_quoted (name content : String) :
    (name ++ " \"" ++ content ++ "\"").toList =
      name.toList ++ ' ' :: '"' :: (content.toList ++ ['"']) := by
  simp [String.toList_append]

/-! ## Words without marks -/

/-- Words that hold no marks. -/
def Unmarked (ws : List (List Char)) : Prop := ∀ word ∈ ws, IsWord word ∧ marks word = 0

theorem Unmarked.marks_unwords {ws : List (List Char)} (unmarked : Unmarked ws) :
    marks (unwords ws) = 0 := by
  rw [Listing.marks_unwords fun word member => (unmarked word member).1, marks,
    List.countP_eq_zero]
  intro c member
  obtain ⟨word, inside, within⟩ := List.mem_flatten.mp member
  exact List.countP_eq_zero.mp (unmarked word inside).2 c within

theorem not_isMark_of_isAlphanum {c : Char} (plain : c.isAlphanum = true) : ¬isMark c = true := by
  intro mark
  rw [isMark, Bool.or_eq_true, beq_iff_eq, beq_iff_eq] at mark
  rcases mark with rfl | rfl <;> contradiction

theorem unmarked_toString (value : Word) : Unmarked [(toString value).toList] := by
  have free : marks (toString value).toList = 0 := by
    rw [marks, List.countP_eq_zero]
    intro c member
    rcases numeral_of_mem_toString member with rfl | plain
    · decide
    · exact not_isMark_of_isAlphanum plain
  exact List.forall_mem_singleton.mpr ⟨isWord_toString value, free⟩

theorem unmarked_name (register : Register) : Unmarked [register.name.toList] := by
  cases register <;>
    exact List.forall_mem_singleton.mpr ⟨isWord_of_all (List.cons_ne_nil _ _) rfl, rfl⟩

theorem unmarked_cell (address : Word) (register : Register) :
    Unmarked [(toString address).toList, register.name.toList] :=
  List.forall_mem_append.mpr ⟨unmarked_toString address, unmarked_name register⟩

theorem toList_cell (address : Word) (register : Register) :
    (Operand.cell address register).written.toList =
      unwords [(toString address).toList, register.name.toList] := by
  rw [unwords_cons_cons, unwords_singleton]
  exact toList_spaced _ _

/-- Numbers, registers and cells are written as words without marks. -/
theorem exists_unmarked {form : Form} {instruction : Instruction} (takes : form.Takes instruction)
    (notName : ¬∃ make, form = .name make) (notFile : ¬∃ make, form = .file make) :
    ∃ ws, Operand.textOf instruction.operand = unwords ws ∧ Unmarked ws := by
  cases form with
  | bare made =>
    rw [takes.2]
    exact ⟨[], rfl, List.forall_mem_nil _⟩
  | integer make =>
    obtain ⟨value, -, operand⟩ := takes
    rw [operand]
    exact ⟨_, (unwords_singleton _).symm, unmarked_toString value⟩
  | destination make | distance make =>
    obtain ⟨address, -, -, operand⟩ := takes
    rw [operand]
    exact ⟨_, (unwords_singleton _).symm, unmarked_toString (Int64.ofNat address)⟩
  | name make => exact absurd ⟨make, rfl⟩ notName
  | register make =>
    obtain ⟨register, -, operand⟩ := takes
    rw [operand]
    exact ⟨_, (unwords_singleton _).symm, unmarked_name register⟩
  | cell make =>
    obtain ⟨address, register, -, operand⟩ := takes
    rw [operand]
    exact ⟨_, toList_cell address register, unmarked_cell address register⟩
  | file make => exact absurd ⟨make, rfl⟩ notFile

/-! ## Operands of words -/

theorem plainOperand_toString (value : Word) :
    plainOperand [(toString value).toList] = some (.integer value) := by
  rw [plainOperand, scalar, word?_toString]

/-- Words make no operand, a number or their own text. -/
theorem plainOperand_cases (ws : List (List Char)) :
    plainOperand ws = none ∨ (∃ value, plainOperand ws = some (.integer value)) ∨
      ws ≠ [] ∧ plainOperand ws = some (joined ws) := by
  match ws with
  | [] => exact .inl rfl
  | [word] =>
    rw [plainOperand, scalar]
    split
    · next value _ => exact .inr (.inl ⟨value, rfl⟩)
    · rw [joined, unwords_singleton]
      exact .inr (.inr ⟨List.cons_ne_nil _ _, rfl⟩)
  | first :: second :: others => exact .inr (.inr ⟨List.cons_ne_nil _ _, rfl⟩)

private theorem textOf_joined (ws : List (List Char)) :
    Operand.textOf (some (joined ws)) = unwords ws := String.toList_ofList

section Words

variable {ws : List (List Char)} (all : ∀ word ∈ ws, IsWord word)

include all

/-- The operand that words make is made again by its own words. -/
theorem plainOperand_words :
    plainOperand (words (Operand.textOf (plainOperand ws))) = plainOperand ws := by
  rcases plainOperand_cases ws with absent | ⟨value, number⟩ | ⟨-, text⟩
  · rw [absent]
    rfl
  · rw [number, Operand.textOf, Operand.written, words_eq_singleton (isWord_toString value),
      plainOperand_toString]
  · rw [text, textOf_joined, words_unwords all, text]

theorem isLine_plainOperand :
    Operand.textOf (plainOperand ws) = [] ∨ IsLine (Operand.textOf (plainOperand ws)) := by
  rcases plainOperand_cases ws with absent | ⟨value, number⟩ | ⟨nonempty, text⟩
  · rw [absent]
    exact .inl rfl
  · rw [number]
    exact .inr (isLine_of_isWord (isWord_toString value))
  · rw [text, textOf_joined]
    exact .inr (isLine_unwords all nonempty)

/-- The operand that words make has no more marks than the words. -/
theorem marks_plainOperand : marks (Operand.textOf (plainOperand ws)) ≤ marks ws.flatten := by
  rcases plainOperand_cases ws with absent | ⟨value, number⟩ | ⟨-, text⟩
  · rw [absent]
    exact Nat.zero_le _
  · have unmarked := (unmarked_toString value).marks_unwords
    rw [unwords_singleton] at unmarked
    rw [number, Operand.textOf, Operand.written, unmarked]
    exact Nat.zero_le _
  · rw [text, textOf_joined, marks_unwords all]

end Words

theorem nameOperand_words {text : String} (phrase : IsPhrase text.toList) :
    nameOperand (words text.toList) = some (.text text) := by
  cases found : words text.toList with
  | nil => exact absurd found phrase.words_ne_nil
  | cons first others =>
    have squeezed := phrase.2
    rw [squeeze, found] at squeezed
    rw [nameOperand, joined, squeezed, String.ofList_toList]
    exact List.cons_ne_nil first others

/-- The name that words give is the phrase of the words. -/
theorem isPhrase_of_nameOperand {ws : List (List Char)} (all : ∀ word ∈ ws, IsWord word)
    {name : String} (named : Operand.name? (nameOperand ws) = .ok name) :
    IsPhrase name.toList ∧ marks name.toList = marks ws.flatten := by
  cases ws with
  | nil => contradiction
  | cons first others =>
    cases named
    rw [String.toList_ofList]
    exact ⟨isPhrase_unwords all (List.cons_ne_nil _ _), marks_unwords all⟩

/-! ## Files -/

theorem trim_quoted (text : List Char) :
    trim ('"' :: (text ++ ['"'])) = '"' :: (text ++ ['"']) := by
  rw [trim, trimStart_cons (by decide), ← List.cons_append, trimEnd_of_solid (by decide)]

theorem unquote?_quoted (text : List Char) : unquote? ('"' :: (text ++ ['"'])) = some text := by
  rw [unquote?, trim_quoted]
  simp

private theorem unquote?_eq_none {text : List Char} (free : '"' ∉ text) : unquote? text = none := by
  rw [unquote?]
  split
  · next inner quoted =>
    exact absurd (mem_of_mem_trim (quoted ▸ List.mem_cons_self)) free
  · rfl

private theorem sublist_of_unquote? {text inner : List Char} (found : unquote? text = some inner) :
    inner.Sublist (trim text) := by
  rw [unquote?] at found
  split at found
  · next rest quoted =>
    split at found
    · cases found
      rw [quoted]
      exact (List.dropLast_sublist rest).cons '"'
    · contradiction
  · contradiction

/-- A file's content stands behind its name, plainly where it is a phrase or empty, and in quotes
otherwise. -/
theorem exists_toList_file (name content : String) :
    ∃ text, (Operand.file name content).written.toList = name.toList ++ ' ' :: text ∧
      (text = content.toList ∧ '"' ∉ text ∧ squeeze text = text ∨
        text = '"' :: (content.toList ++ ['"'])) := by
  rw [Operand.written]
  cases plain : isPlainContent content.toList with
  | true =>
    rw [if_pos rfl]
    refine ⟨_, toList_spaced name content, .inl ⟨rfl, ?_⟩⟩
    rw [isPlainContent, Bool.and_eq_true, Bool.not_eq_true', List.any_eq_false] at plain
    exact ⟨fun member => plain.1 '"' member rfl, eq_of_beq plain.2⟩
  | false =>
    rw [if_neg Bool.false_ne_true]
    exact ⟨_, toList_quoted name content, .inr rfl⟩

/-- A name is read up to its end, and what stands behind it is the content. -/
theorem fileOperand_append {statement : Statement} {name text : List Char} (isWord : IsWord name)
    (rest : statement.rest = trim (name ++ ' ' :: text)) :
    fileOperand statement =
      .ok (.file (String.ofList name)
        (String.ofList ((unquote? (trim text)).getD (squeeze (trim text))))) := by
  rw [fileOperand, rest, firstWord?_trim_append isWord (endsWord_cons (by decide) text)]
  simp only [trim_cons_blank (show isBlank ' ' = true by decide)]

/-- A written file is read back. -/
theorem fileOperand_of_written {statement : Statement} {name content : String}
    (isWord : IsWord name.toList)
    (rest : statement.rest = trim (Operand.file name content).written.toList) :
    fileOperand statement = .ok (.file name content) := by
  obtain ⟨text, written, content_eq⟩ := exists_toList_file name content
  have read : (unquote? (trim text)).getD (squeeze (trim text)) = content.toList := by
    rcases content_eq with ⟨same, free, squeezed⟩ | rfl
    · rw [unquote?_eq_none fun member => free (mem_of_mem_trim member), Option.getD_none, squeeze,
        words_trim, ← squeeze, squeezed, same]
    · rw [trim_quoted, unquote?_quoted, Option.getD_some]
  rw [written] at rest
  rw [fileOperand_append isWord rest, read, String.ofList_toList, String.ofList_toList]

/-- A text in quotes keeps to one line if the text itself does. -/
theorem isLine_quoted {text : List Char} (free : '\n' ∉ text) :
    IsLine ('"' :: (text ++ ['"'])) := by
  refine ⟨List.cons_ne_nil _ _, by simpa using free, ?_⟩
  rw [← List.cons_append, List.getLast?_concat]
  decide

theorem isLine_file {name content : String} (isWord : IsWord name.toList)
    (free : '\n' ∉ content.toList) : IsLine (Operand.file name content).written.toList := by
  obtain ⟨text, written, content_eq⟩ := exists_toList_file name content
  rw [written]
  apply isLine_spaced isWord
  rcases content_eq with ⟨-, -, squeezed⟩ | rfl
  · by_cases empty : text = []
    · exact .inl empty
    · exact .inr (isLine_of_isPhrase ⟨empty, squeezed⟩)
  · exact .inr (isLine_quoted free)

theorem marks_file (name content : String) :
    marks (Operand.file name content).written.toList =
      marks name.toList + marks content.toList := by
  obtain ⟨text, written, content_eq⟩ := exists_toList_file name content
  have unmarked : marks text = marks content.toList := by
    rcases content_eq with ⟨rfl, -⟩ | rfl
    · rfl
    · rw [marks_cons_of_not_isMark (by decide), marks_append]
      rfl
  rw [written, marks_append, marks_cons_of_not_isMark (by decide), unmarked]

/-- The content of a file keeps to the line of the text that it is read from and has no more
marks. -/
theorem content_of_text {text : List Char} (free : '\n' ∉ text) :
    '\n' ∉ (unquote? text).getD (squeeze text) ∧
      marks ((unquote? text).getD (squeeze text)) ≤ marks text := by
  cases found : unquote? text with
  | none =>
    rw [Option.getD_none, marks_squeeze]
    exact ⟨not_mem_squeeze text, Nat.le_refl _⟩
  | some inner =>
    have sublist := sublist_of_unquote? found
    rw [Option.getD_some, ← marks_trim text]
    exact ⟨fun feed => free (mem_of_mem_trim (sublist.subset feed)), sublist.countP_le⟩

/-- A file that a statement gives has a word for a name, and a content on one line. -/
theorem exists_of_fileOperand {statement : Statement} (free : '\n' ∉ statement.rest)
    {operand : Operand} (found : fileOperand statement = .ok operand) :
    ∃ name content, operand = .file name content ∧ IsWord name.toList ∧
      '\n' ∉ content.toList ∧
      marks name.toList + marks content.toList ≤ marks statement.rest := by
  rw [fileOperand] at found
  split at found
  · contradiction
  · next name text first =>
    cases found
    obtain ⟨-, -, -, isWord, -⟩ := exists_of_firstWord? first
    obtain ⟨oneLine, fewer⟩ :=
      content_of_text fun feed => free (mem_of_mem_firstWord? first feed)
    refine ⟨_, _, rfl, ?_⟩
    rw [String.toList_ofList, String.toList_ofList, marks_of_firstWord? first]
    exact ⟨isWord, oneLine, Nat.add_le_add_left fewer _⟩

end Listing

end RegisterMachine
