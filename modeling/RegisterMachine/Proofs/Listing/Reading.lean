import Mathlib.Data.List.Forall2
import RegisterMachine.Listing.Statement
import RegisterMachine.Proofs.Text.Words

/-! # Reading a listing

A chunk is read from its beginning, word by word: words that end in a colon define labels, and the
first word that does not is the mnemonic of the chunk's statement, with the trimmed rest of the
chunk as the text of its operand. A listing is read chunk by chunk, in order, each chunk with the
number of its line. Blanks at the ends of a chunk do not count.
-/

namespace RegisterMachine.Listing

open Text

/-- How a chunk on a given line is read: the labels that it defines and its statement, if it has
one. -/
inductive Reads (line : Nat) : List Char → List String → Option Statement → Prop
  | blank {text : List Char} (blank : ∀ c ∈ text, isBlank c = true) : Reads line text [] none
  | statement {blanks word tail : List Char} (blank : ∀ c ∈ blanks, isBlank c = true)
      (isWord : IsWord word) (plain : word.getLast? ≠ some ':') (ends : EndsWord tail) :
      Reads line (blanks ++ (word ++ tail)) [] (some ⟨line, String.ofList word, trim tail⟩)
  | label {blanks name tail : List Char} {labels : List String} {statement : Option Statement}
      (blank : ∀ c ∈ blanks, isBlank c = true) (isWord : IsWord (name ++ [':']))
      (ends : EndsWord tail) (others : Reads line tail labels statement) :
      Reads line (blanks ++ ((name ++ [':']) ++ tail)) (String.ofList name :: labels) statement

/-- The chunks of a text in order, each with the number of its line, from one. -/
def placedChunks (source : List Char) : List (Nat × List Char) :=
  ((lines source).zipIdx 1).flatMap fun (line, number) =>
    (chunks line).map fun chunk => (number, chunk)

/-- The sections of a text are its chunks, read one by one. -/
def IsReading (source : List Char) (pieces : List Section) : Prop :=
  List.Forall₂ (fun (placed : Nat × List Char) (piece : Section) =>
    piece.line = placed.1 ∧ Reads placed.1 placed.2 piece.labels piece.statement)
    (placedChunks source) pieces

/-! ## Taking a chunk apart -/

section Chunks

variable {line : Nat} {chunk word rest : List Char}

private theorem isLabel_iff : isLabel word = true ↔ ∃ name, word = name ++ [':'] := by
  rw [isLabel, beq_iff_eq, List.getLast?_eq_some_iff]

theorem ofChunk_of_blank (blank : firstWord? chunk = none) :
    Section.ofChunk line chunk = ⟨line, [], none⟩ := by
  have labels : labelWords chunk = [] := by
    rw [labelWords, words_of_firstWord?_none blank, List.takeWhile_nil]
  rw [Section.ofChunk, labels]
  simp only [List.length_nil, afterWords, blank, List.map_nil, Option.map_none]

private theorem ofChunk_of_statement (found : firstWord? chunk = some (word, rest))
    (plain : isLabel word = false) :
    Section.ofChunk line chunk = ⟨line, [], some ⟨line, String.ofList word, rest⟩⟩ := by
  have labels : labelWords chunk = [] := by
    rw [labelWords, words_of_firstWord? found, List.takeWhile_cons, plain]
    rfl
  rw [Section.ofChunk, labels]
  simp only [List.length_nil, afterWords, found, List.map_nil, Option.map_some]

/-- A first word that defines a label leaves the rest of the chunk to be read in the same way. -/
theorem ofChunk_of_label (found : firstWord? chunk = some (word, rest))
    (label : isLabel word = true) :
    Section.ofChunk line chunk =
      { Section.ofChunk line rest with
        labels := String.ofList word.dropLast :: (Section.ofChunk line rest).labels } := by
  have labels : labelWords chunk = word :: labelWords rest := by
    rw [labelWords, words_of_firstWord? found, List.takeWhile_cons, label]
    rfl
  rw [Section.ofChunk, Section.ofChunk, labels]
  simp only [List.length_cons, afterWords, found, List.map_cons]

/-! ## Blanks at the ends of a chunk -/

theorem ofChunk_trim (line : Nat) (chunk : List Char) :
    Section.ofChunk line (trim chunk) = Section.ofChunk line chunk := by
  cases found : firstWord? chunk with
  | none =>
    rw [ofChunk_of_blank found, ofChunk_of_blank ((firstWord?_trim chunk).trans found)]
  | some first =>
    have trimmed := (firstWord?_trim chunk).trans found
    cases label : isLabel first.1 with
    | true => rw [ofChunk_of_label found label, ofChunk_of_label trimmed label]
    | false => rw [ofChunk_of_statement found label, ofChunk_of_statement trimmed label]

/-! ## The way a chunk is read -/

/-- What is taken apart of a chunk is what is read from it. -/
theorem reads_ofChunk (line : Nat) (chunk : List Char) :
    Reads line chunk (Section.ofChunk line chunk).labels
      (Section.ofChunk line chunk).statement := by
  -- The rest behind a label is shorter than the chunk.
  induction size : chunk.length using Nat.strongRecOn generalizing chunk with
  | ind length ih =>
    cases found : firstWord? chunk with
    | none =>
      rw [ofChunk_of_blank found]
      exact .blank (firstWord?_eq_none_iff.mp found)
    | some first =>
      obtain ⟨word, rest⟩ := first
      obtain ⟨blanks, tail, blank, isWord, ends, rfl, rfl⟩ := exists_of_firstWord? found
      cases label : isLabel word with
      | false =>
        rw [ofChunk_of_statement found label]
        exact .statement blank isWord (by simpa [isLabel] using label) ends
      | true =>
        obtain ⟨name, rfl⟩ := isLabel_iff.mp label
        rw [ofChunk_of_label found label, ofChunk_trim, List.dropLast_concat]
        have shorter : tail.length < length := by
          rw [← size]
          simp only [List.length_append, List.length_singleton]
          omega
        exact .label blank isWord ends (ih tail.length shorter tail rfl)

/-- A chunk can be read in one way only. -/
theorem Reads.ofChunk_eq {labels : List String} {statement : Option Statement}
    (reads : Reads line chunk labels statement) :
    Section.ofChunk line chunk = ⟨line, labels, statement⟩ := by
  induction reads with
  | blank blank => exact ofChunk_of_blank (firstWord?_eq_none_iff.mpr blank)
  | statement blank isWord plain ends =>
    refine ofChunk_of_statement (firstWord?_blank_append blank isWord ends) ?_
    simpa [isLabel] using plain
  | @label blanks name tail labels statement blank isWord ends _ ih =>
    have label : isLabel (name ++ [':']) = true := isLabel_iff.mpr ⟨name, rfl⟩
    rw [ofChunk_of_label (firstWord?_blank_append blank isWord ends) label, ofChunk_trim, ih,
      List.dropLast_concat]

end Chunks

/-! ## The reading of a listing -/

private theorem sections_eq_map (source : List Char) :
    sections source =
      (placedChunks source).map fun placed => Section.ofChunk placed.1 placed.2 := by
  simp only [sections, placedChunks, List.map_flatMap, List.map_map, Function.comp_def]

/-- The sections of a text are the one reading that it has. -/
theorem isReading_iff {source : List Char} {pieces : List Section} :
    IsReading source pieces ↔ pieces = sections source := by
  rw [sections_eq_map, IsReading, eq_comm, ← List.forall₂_eq_eq_eq, List.forall₂_map_left_iff]
  apply iff_of_eq
  congr 1
  funext placed piece
  apply propext
  constructor
  · rintro ⟨line, reads⟩
    rw [reads.ofChunk_eq, ← line]
  · rintro rfl
    exact ⟨rfl, reads_ofChunk placed.1 placed.2⟩

theorem isReading_sections (source : List Char) : IsReading source (sections source) :=
  isReading_iff.mpr rfl

end RegisterMachine.Listing
