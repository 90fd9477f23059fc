import Mathlib.Algebra.Order.BigOperators.Group.List
import Mathlib.Algebra.Order.Group.Nat
import RegisterMachine.Listing.Statement
import RegisterMachine.Proofs.Listing.Chunks
import RegisterMachine.Proofs.Text.Lines

/-! # Statements of a listing

A statement begins with a word that is no label and keeps to its line. Taking a listing apart never
adds marks: the statements hold at most the marks of the chunks, and the chunks at most those of the
lines.
-/

namespace RegisterMachine.Listing

open Text

/-! ## Marks of words -/

theorem isBlank_of_isMark {c : Char} (mark : isMark c = true) : isBlank c = false := by
  rcases Bool.or_eq_true_iff.mp mark with semicolon | hash
  · rw [eq_of_beq semicolon]
    decide
  · rw [eq_of_beq hash]
    decide

/-- The marks of a text stand in its words. -/
theorem marks_eq_marks_words (text : List Char) : marks text = marks (words text).flatten := by
  rw [flatten_words, marks, marks, List.countP_filter]
  apply List.countP_congr
  intro c _
  cases mark : isMark c with
  | true => simp [isBlank_of_isMark mark]
  | false => simp

theorem marks_trim (text : List Char) : marks (trim text) = marks text := by
  rw [marks_eq_marks_words, words_trim, ← marks_eq_marks_words]

theorem marks_unwords {ws : List (List Char)} (all : ∀ word ∈ ws, IsWord word) :
    marks (unwords ws) = marks ws.flatten := by
  rw [marks_eq_marks_words, words_unwords all]

theorem marks_squeeze (text : List Char) : marks (squeeze text) = marks text := by
  rw [marks_eq_marks_words, words_squeeze, ← marks_eq_marks_words]

theorem marks_of_firstWord? {text word rest : List Char}
    (found : firstWord? text = some (word, rest)) : marks text = marks word + marks rest := by
  rw [marks_eq_marks_words text, words_of_firstWord? found, List.flatten_cons, marks_append,
    ← marks_eq_marks_words]

/-! ## A statement of a chunk -/

private theorem words_afterWords (count : Nat) (text : List Char) :
    words (afterWords count text) = (words text).drop count := by
  induction count generalizing text with
  | zero => rfl
  | succ count ih =>
    rw [afterWords]
    split
    · next word rest found => rw [ih, words_of_firstWord? found, List.drop_succ_cons]
    · next none => rw [words_of_firstWord?_none none, words_nil, List.drop_nil]

theorem mem_of_mem_firstWord? {text word rest : List Char}
    (found : firstWord? text = some (word, rest)) {c : Char} (member : c ∈ rest) : c ∈ text := by
  obtain ⟨blanks, tail, -, -, -, rfl, rfl⟩ := exists_of_firstWord? found
  exact List.mem_append_right _ (List.mem_append_right _ (mem_of_mem_trim member))

private theorem mem_of_mem_afterWords {count : Nat} {text : List Char} {c : Char}
    (member : c ∈ afterWords count text) : c ∈ text := by
  induction count generalizing text with
  | zero => exact member
  | succ count ih =>
    rw [afterWords] at member
    split at member
    · next word rest found => exact mem_of_mem_firstWord? found (ih member)
    · contradiction

/-- A statement as it is read from a line. -/
structure Statement.Parsed (statement : Statement) : Prop where
  isWord : IsWord statement.mnemonic.toList
  notLabel : isLabel statement.mnemonic.toList = false
  free : '\n' ∉ statement.rest

def Statement.marks (statement : Statement) : Nat :=
  Listing.marks statement.mnemonic.toList + Listing.marks statement.rest

private theorem exists_of_ofChunk {line : Nat} {chunk : List Char} {statement : Statement}
    (found : (Section.ofChunk line chunk).statement = some statement) :
    ∃ word rest, firstWord? (afterWords (labelWords chunk).length chunk) = some (word, rest) ∧
      statement = ⟨line, String.ofList word, rest⟩ := by
  obtain ⟨⟨word, rest⟩, first, same⟩ := Option.map_eq_some_iff.mp found
  exact ⟨word, rest, first, same.symm⟩

private theorem parsed_of_ofChunk {line : Nat} {chunk : List Char} (free : '\n' ∉ chunk)
    {statement : Statement} (found : (Section.ofChunk line chunk).statement = some statement) :
    statement.Parsed := by
  obtain ⟨word, rest, first, rfl⟩ := exists_of_ofChunk found
  obtain ⟨-, -, -, isWord, -⟩ := exists_of_firstWord? first
  have remaining : (words chunk).dropWhile isLabel = word :: words rest := by
    have split : words chunk = labelWords chunk ++ (words chunk).dropWhile isLabel :=
      List.takeWhile_append_dropWhile.symm
    calc
      (words chunk).dropWhile isLabel =
          (labelWords chunk ++ (words chunk).dropWhile isLabel).drop (labelWords chunk).length :=
        List.drop_left.symm
      _ = (words chunk).drop (labelWords chunk).length := by rw [← split]
      _ = word :: words rest := by rw [← words_afterWords, words_of_firstWord? first]
  have notLabel := List.head?_dropWhile_not isLabel (words chunk)
  rw [remaining] at notLabel
  constructor
  · rw [String.toList_ofList]
    exact isWord
  · rw [String.toList_ofList]
    exact notLabel
  · exact fun member => free (mem_of_mem_afterWords (mem_of_mem_firstWord? first member))

private theorem marks_of_ofChunk {line : Nat} {chunk : List Char} {statement : Statement}
    (found : (Section.ofChunk line chunk).statement = some statement) :
    statement.marks ≤ marks chunk := by
  obtain ⟨word, rest, first, rfl⟩ := exists_of_ofChunk found
  rw [Statement.marks, String.toList_ofList, ← marks_of_firstWord? first, marks_eq_marks_words,
    words_afterWords, marks_eq_marks_words chunk]
  have split := marks_append ((words chunk).take (labelWords chunk).length).flatten
    ((words chunk).drop (labelWords chunk).length).flatten
  rw [← List.flatten_append, List.take_append_drop] at split
  omega

/-! ## The statements of a listing -/

/-- Every statement of a listing is read from one of its lines. -/
theorem parsed_of_mem_statements {source : List Char} {statement : Statement}
    (member : statement ∈ statements (sections source)) : statement.Parsed := by
  obtain ⟨piece, inside, found⟩ := List.mem_filterMap.mp member
  obtain ⟨⟨line, number⟩, numbered, inside⟩ := List.mem_flatMap.mp inside
  obtain ⟨chunk, cut, rfl⟩ := List.mem_map.mp inside
  have free := not_mem_lines source line (List.fst_mem_of_mem_zipIdx numbered)
  exact parsed_of_ofChunk (fun feed => free (mem_of_mem_chunksFrom cut feed)) found

private theorem marks_statements_chunks (number : Nat) (pieces : List (List Char)) :
    ((statements (pieces.map (Section.ofChunk number))).map Statement.marks).sum ≤
      (pieces.map marks).sum := by
  induction pieces with
  | nil => exact Nat.le_refl 0
  | cons piece others ih =>
    simp only [statements, List.map_cons, List.filterMap_cons, List.sum_cons] at ih ⊢
    split
    · omega
    · next statement found =>
      have kept := marks_of_ofChunk found
      rw [List.map_cons, List.sum_cons]
      omega

/-- The statements of a listing have no more marks than the chunks of its lines. -/
theorem marks_statements_le (ls : List (List Char)) (number : Nat) :
    ((statements ((ls.zipIdx number).flatMap fun (line, number) =>
      (chunks line).map (Section.ofChunk number))).map Statement.marks).sum ≤
        (ls.map fun line => ((chunks line).map marks).sum).sum := by
  induction ls generalizing number with
  | nil => exact Nat.le_refl 0
  | cons line others ih =>
    have first := marks_statements_chunks number (chunks line)
    have later := ih (number + 1)
    simp only [statements, List.zipIdx_cons, List.flatMap_cons, List.filterMap_append,
      List.map_append, List.sum_append, List.map_cons, List.sum_cons] at first later ⊢
    omega

/-- Cutting lines never adds marks. -/
theorem sum_marks_chunks_le (ls : List (List Char)) :
    (ls.map fun line => ((chunks line).map marks).sum).sum ≤ (ls.map marks).sum := by
  apply List.sum_le_sum
  intro line _
  exact marks_chunks_le line

/-- Lines that keep all their marks when they are cut are statements of their own. -/
theorem isOneStatement_of_sum_le {ls : List (List Char)}
    (kept : (ls.map marks).sum ≤ (ls.map fun line => ((chunks line).map marks).sum).sum) :
    ∀ line ∈ ls, IsOneStatement line := by
  induction ls with
  | nil => exact List.forall_mem_nil _
  | cons line others ih =>
    -- No line gains marks, so that a sum which keeps them keeps them on each line.
    have first := marks_chunks_le line
    have later := sum_marks_chunks_le others
    simp only [List.map_cons, List.sum_cons] at kept
    rw [List.forall_mem_cons]
    constructor
    · apply isOneStatement_of_marks_le
      omega
    · apply ih
      omega

end RegisterMachine.Listing
