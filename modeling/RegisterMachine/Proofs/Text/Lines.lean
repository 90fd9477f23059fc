import RegisterMachine.Proofs.Text.Words
import RegisterMachine.Text.Lines

/-! # Lines read back

No line of a text holds a line feed. Lines that are joined by line feeds are read back when none is
empty, holds a line feed or ends in a carriage return.
-/

namespace RegisterMachine.Text

/-! ## Lines of any text -/

private theorem not_mem_dropReturn {line : List Char} (free : '\n' ∉ line) :
    '\n' ∉ dropReturn line := by
  rw [dropReturn]
  split
  · exact fun member => free (List.dropLast_subset line member)
  · exact free

private theorem not_mem_linesOfPieces {pieces : List (List Char)}
    (free : ∀ piece ∈ pieces, '\n' ∉ piece) :
    ∀ line ∈ linesOfPieces pieces, '\n' ∉ line := by
  induction pieces with
  | nil => exact List.forall_mem_nil _
  | cons piece others ih =>
    rw [List.forall_mem_cons] at free
    cases others with
    | nil =>
      rw [linesOfPieces]
      split
      · exact List.forall_mem_nil _
      · exact List.forall_mem_cons.mpr ⟨free.1, List.forall_mem_nil _⟩
    | cons second others =>
      rw [linesOfPieces, List.forall_mem_cons]
      · exact ⟨not_mem_dropReturn free.1, ih free.2⟩
      · exact List.cons_ne_nil second others

theorem not_mem_lines (text : List Char) : ∀ line ∈ lines text, '\n' ∉ line := by
  apply not_mem_linesOfPieces
  intro piece member feed
  have whole := not_separates_of_mem_pieces member '\n' feed
  contradiction

/-! ## Joined lines -/

/-- A text that stays one line when others stand before and after it. -/
structure IsLine (line : List Char) : Prop where
  nonempty : line ≠ []
  free : '\n' ∉ line
  plain : line.getLast? ≠ some '\r'

private theorem pieces_intercalate {ls : List (List Char)} (free : ∀ line ∈ ls, '\n' ∉ line)
    (some : ls ≠ []) : pieces (· == '\n') (List.intercalate ['\n'] ls) = ls := by
  have whole {line : List Char} (free : '\n' ∉ line) : ∀ c ∈ line, (c == '\n') = false := by
    intro c member
    exact beq_false_of_ne fun same => free (same ▸ member)
  induction ls with
  | nil => exact absurd rfl some
  | cons line others ih =>
    rw [List.forall_mem_cons] at free
    cases others with
    | nil => rw [List.intercalate_singleton, pieces_eq_singleton (whole free.1)]
    | cons second others =>
      rw [List.intercalate_cons_cons, List.append_assoc, List.singleton_append,
        pieces_append_cons _ (by decide), pieces_eq_singleton (whole free.1),
        ih free.2 (List.cons_ne_nil _ _)]
      rfl

private theorem linesOfPieces_eq {ls : List (List Char)} (isLine : ∀ line ∈ ls, IsLine line) :
    linesOfPieces ls = ls := by
  induction ls with
  | nil => rfl
  | cons line others ih =>
    rw [List.forall_mem_cons] at isLine
    cases others with
    | nil => simp [linesOfPieces, isLine.1.nonempty]
    | cons second others =>
      rw [linesOfPieces, ih isLine.2, dropReturn, if_neg isLine.1.plain]
      exact List.cons_ne_nil second others

/-- Joined lines are read back. -/
theorem lines_intercalate {ls : List (List Char)} (isLine : ∀ line ∈ ls, IsLine line) :
    lines (List.intercalate ['\n'] ls) = ls := by
  cases ls with
  | nil => rfl
  | cons line others =>
    rw [lines, pieces_intercalate (fun line member => (isLine line member).free)
      (List.cons_ne_nil line others), linesOfPieces_eq isLine]

/-! ## Words in a line -/

private theorem IsWord.free {word : List Char} (isWord : IsWord word) : '\n' ∉ word := by
  intro member
  have solid := isWord.2 '\n' member
  contradiction

theorem isLine_of_isWord {word : List Char} (isWord : IsWord word) : IsLine word := by
  refine ⟨isWord.1, isWord.free, fun last => ?_⟩
  have solid := isWord.2 '\r' (List.mem_of_getLast? last)
  contradiction

/-- A word stays on one line with what stands behind it. -/
theorem isLine_spaced {word text : List Char} (isWord : IsWord word)
    (rest : text = [] ∨ IsLine text) : IsLine (word ++ ' ' :: text) := by
  rcases rest with rfl | line
  · refine ⟨by simp, fun member => ?_, by simp⟩
    rcases List.mem_append.mp member with inside | feed
    · exact isWord.free inside
    · cases List.mem_singleton.mp feed
  · refine ⟨by simp, fun member => ?_, ?_⟩
    · rcases List.mem_append.mp member with inside | outside
      · exact isWord.free inside
      · rcases List.mem_cons.mp outside with same | inside
        · cases same
        · exact line.free inside
    · rw [List.getLast?_append, Option.or_of_isSome (by simp)]
      cases text with
      | nil => exact absurd rfl line.nonempty
      | cons c rest =>
        rw [List.getLast?_cons_cons]
        exact line.plain

theorem isLine_unwords {ws : List (List Char)} (all : ∀ word ∈ ws, IsWord word) (some : ws ≠ []) :
    IsLine (unwords ws) := by
  induction ws with
  | nil => exact absurd rfl some
  | cons first others ih =>
    rw [List.forall_mem_cons] at all
    cases others with
    | nil =>
      rw [unwords_singleton]
      exact isLine_of_isWord all.1
    | cons second others =>
      rw [unwords_cons_cons]
      exact isLine_spaced all.1 (.inr (ih all.2 (List.cons_ne_nil _ _)))

theorem not_mem_squeeze (text : List Char) : '\n' ∉ squeeze text := by
  by_cases empty : words text = []
  · rw [squeeze, empty]
    exact List.not_mem_nil
  · exact (isLine_unwords (fun _ => isWord_of_mem_words) empty).free

theorem isLine_of_isPhrase {text : List Char} (phrase : IsPhrase text) : IsLine text := by
  rw [← phrase.2]
  exact isLine_unwords (fun _ => isWord_of_mem_words) phrase.words_ne_nil

end RegisterMachine.Text
