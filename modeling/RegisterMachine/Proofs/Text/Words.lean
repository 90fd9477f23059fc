import RegisterMachine.Text.Blank

/-! # Words

The words of a text are its longest runs of characters that are not blank, and together they hold
all of these characters. Trimming and squeezing leave the words alone, and words joined by spaces
are read back one by one.
-/

namespace RegisterMachine.Text

/-! ## Pieces -/

theorem pieces_eq_singleton {separates : Char → Bool} {text : List Char}
    (whole : ∀ c ∈ text, separates c = false) : pieces separates text = [text] := by
  induction text with
  | nil => rfl
  | cons c rest ih =>
    rw [List.forall_mem_cons] at whole
    simp only [pieces, whole.1, Bool.false_eq_true, if_false, ih whole.2]

theorem not_separates_of_mem_pieces {separates : Char → Bool} {text piece : List Char}
    (member : piece ∈ pieces separates text) : ∀ c ∈ piece, separates c = false := by
  induction text generalizing piece with
  | nil =>
    cases List.mem_singleton.mp member
    exact List.forall_mem_nil _
  | cons c rest ih =>
    rw [pieces] at member
    split at member
    · rcases List.mem_cons.mp member with rfl | later
      · exact List.forall_mem_nil _
      · exact ih later
    · next whole =>
      rw [Bool.not_eq_true] at whole
      split at member
      · cases List.mem_singleton.mp member
        exact List.forall_mem_cons.mpr ⟨whole, List.forall_mem_nil _⟩
      · next first others start =>
        rw [start] at ih
        rcases List.mem_cons.mp member with rfl | later
        · exact List.forall_mem_cons.mpr ⟨whole, ih List.mem_cons_self⟩
        · exact ih (List.mem_cons_of_mem first later)

/-- Cutting takes away the separators and nothing else. -/
theorem flatten_pieces (separates : Char → Bool) (text : List Char) :
    (pieces separates text).flatten = text.filter fun c => !separates c := by
  induction text with
  | nil => rfl
  | cons c rest ih =>
    rw [pieces]
    split
    · next cuts => simp only [List.flatten_cons, List.nil_append, ih, List.filter_cons, cuts,
        Bool.not_true, Bool.false_eq_true, if_false]
    · next whole =>
      obtain ⟨piece, others, start⟩ := List.exists_cons_of_ne_nil (pieces_ne_nil separates rest)
      rw [start] at ih ⊢
      rw [Bool.not_eq_true] at whole
      rw [List.filter_cons, whole, ← ih]
      rfl

/-! ## Words -/

/-- A text without blanks that is not empty. -/
def IsWord (text : List Char) : Prop := text ≠ [] ∧ ∀ c ∈ text, isBlank c = false

/-- Words with single spaces between them. -/
def IsPhrase (text : List Char) : Prop := text ≠ [] ∧ squeeze text = text

instance : DecidablePred IsWord := fun text =>
  decidable_of_iff (text ≠ [] ∧ text.all fun c => !isBlank c) (by simp [IsWord])

instance : DecidablePred IsPhrase := fun text =>
  inferInstanceAs (Decidable (text ≠ [] ∧ squeeze text = text))

theorem isWord_of_all {text : List Char} (nonempty : text ≠ [])
    (solid : text.all (fun c => !isBlank c) = true) : IsWord text := by
  refine ⟨nonempty, fun c member => ?_⟩
  have notBlank := List.all_eq_true.mp solid c member
  simpa using notBlank

theorem isWord_of_mem_words {text word : List Char} (member : word ∈ words text) : IsWord word := by
  rw [words, List.mem_filter] at member
  exact ⟨by simpa using member.2, not_separates_of_mem_pieces member.1⟩

theorem words_eq_singleton {word : List Char} (isWord : IsWord word) : words word = [word] := by
  rw [words, pieces_eq_singleton isWord.2]
  simp [isWord.1]

theorem words_nil : words [] = [] := rfl

private theorem words_cons_blank {c : Char} (blank : isBlank c = true) (text : List Char) :
    words (c :: text) = words text := words_append_cons blank [] text

private theorem words_blank_append {blanks : List Char} (all : ∀ c ∈ blanks, isBlank c = true)
    (text : List Char) : words (blanks ++ text) = words text := by
  induction blanks with
  | nil => rfl
  | cons c blanks ih =>
    rw [List.forall_mem_cons] at all
    rw [List.cons_append, words_cons_blank all.1, ih all.2]

private theorem words_append_blank {blanks : List Char} (all : ∀ c ∈ blanks, isBlank c = true)
    (text : List Char) : words (text ++ blanks) = words text := by
  induction blanks generalizing text with
  | nil => rw [List.append_nil]
  | cons c blanks ih =>
    rw [List.forall_mem_cons] at all
    have rest := ih all.2 []
    rw [List.nil_append, words_nil] at rest
    rw [words_append_cons all.1, rest, List.append_nil]

/-- The words of a text hold the characters that are not blank. -/
theorem flatten_words (text : List Char) :
    (words text).flatten = text.filter fun c => !isBlank c := by
  have nonempty (texts : List (List Char)) :
      (texts.filter fun text => !text.isEmpty).flatten = texts.flatten := by
    induction texts with
    | nil => rfl
    | cons text others ih => cases text <;> simp [ih]
  rw [words, nonempty, flatten_pieces]

theorem unwords_cons_cons (first second : List Char) (others : List (List Char)) :
    unwords (first :: second :: others) = first ++ ' ' :: unwords (second :: others) := by
  rw [unwords, List.intercalate_cons_cons, List.append_assoc]
  rfl

theorem unwords_singleton (word : List Char) : unwords [word] = word :=
  List.intercalate_singleton

/-- Words joined by spaces are read back. -/
theorem words_unwords {ws : List (List Char)} (all : ∀ word ∈ ws, IsWord word) :
    words (unwords ws) = ws := by
  induction ws with
  | nil => rfl
  | cons first others ih =>
    rw [List.forall_mem_cons] at all
    cases others with
    | nil => rw [unwords_singleton, words_eq_singleton all.1]
    | cons second others =>
      rw [unwords_cons_cons, words_append_cons (by decide), words_eq_singleton all.1, ih all.2]
      rfl

theorem words_squeeze (text : List Char) : words (squeeze text) = words text :=
  words_unwords fun _ => isWord_of_mem_words

private theorem unwords_ne_nil {ws : List (List Char)} (all : ∀ word ∈ ws, IsWord word)
    (some : ws ≠ []) :
    unwords ws ≠ [] := by
  intro empty
  rw [← words_unwords all, empty] at some
  contradiction

theorem isPhrase_unwords {ws : List (List Char)} (all : ∀ word ∈ ws, IsWord word)
    (some : ws ≠ []) : IsPhrase (unwords ws) :=
  ⟨unwords_ne_nil all some, by rw [squeeze, words_unwords all]⟩

theorem isPhrase_of_isWord {word : List Char} (isWord : IsWord word) : IsPhrase word :=
  ⟨isWord.1, by rw [squeeze, words_eq_singleton isWord, unwords_singleton]⟩

theorem IsPhrase.words_ne_nil {text : List Char} (phrase : IsPhrase text) : words text ≠ [] := by
  intro empty
  have squeezed := phrase.2
  rw [squeeze, empty] at squeezed
  exact phrase.1 squeezed.symm

/-! ## Trimming -/

theorem trimStart_cons {c : Char} (solid : isBlank c = false) (rest : List Char) :
    trimStart (c :: rest) = c :: rest := by
  rw [trimStart, List.dropWhile_cons, solid]
  rfl

/-- A text is its leading blanks and its trimmed start. -/
theorem exists_trimStart (text : List Char) :
    ∃ blanks, (∀ c ∈ blanks, isBlank c = true) ∧ text = blanks ++ trimStart text :=
  ⟨text.takeWhile isBlank, List.all_eq_true.mp List.all_takeWhile,
    List.takeWhile_append_dropWhile.symm⟩

/-- A text is its trimmed end and its trailing blanks. -/
theorem exists_trimEnd (text : List Char) :
    ∃ blanks, (∀ c ∈ blanks, isBlank c = true) ∧ text = trimEnd text ++ blanks := by
  obtain ⟨blanks, all, same⟩ := exists_trimStart text.reverse
  refine ⟨blanks.reverse, fun c member => all c (List.mem_reverse.mp member), ?_⟩
  rw [trimEnd, ← trimStart, ← List.reverse_append, ← same, List.reverse_reverse]

theorem mem_of_mem_trim {text : List Char} {c : Char} (member : c ∈ trim text) : c ∈ text := by
  obtain ⟨blanks, -, start⟩ := exists_trimStart text
  obtain ⟨others, -, middle⟩ := exists_trimEnd (trimStart text)
  rw [start, middle]
  exact List.mem_append_right _ (List.mem_append_left _ member)

private theorem words_trimStart (text : List Char) : words (trimStart text) = words text := by
  induction text with
  | nil => rfl
  | cons c rest ih =>
    cases blank : isBlank c with
    | true => rw [words_cons_blank blank, ← ih, trimStart, List.dropWhile_cons_of_pos blank]; rfl
    | false => rw [trimStart_cons blank]

private theorem words_trimEnd (text : List Char) : words (trimEnd text) = words text := by
  obtain ⟨blanks, all, same⟩ := exists_trimEnd text
  calc
    words (trimEnd text) = words (trimEnd text ++ blanks) := (words_append_blank all _).symm
    _ = words text := by rw [← same]

theorem words_trim (text : List Char) : words (trim text) = words text := by
  rw [trim, words_trimEnd, words_trimStart]

private theorem trimStart_eq_nil {text : List Char} (blank : ∀ c ∈ text, isBlank c = true) :
    trimStart text = [] := by
  rw [trimStart, ← List.append_nil text, List.dropWhile_append_of_pos blank, List.dropWhile_nil]

theorem trimEnd_append_blank {blanks : List Char} (all : ∀ c ∈ blanks, isBlank c = true)
    (text : List Char) : trimEnd (text ++ blanks) = trimEnd text := by
  rw [trimEnd, List.reverse_append, List.dropWhile_append_of_pos]
  · rfl
  · exact fun c member => all c (List.mem_reverse.mp member)

private theorem trim_append_blank {blanks : List Char} (all : ∀ c ∈ blanks, isBlank c = true)
    (text : List Char) : trim (text ++ blanks) = trim text := by
  have none : blanks.dropWhile isBlank = [] := trimStart_eq_nil all
  rw [trim, trim, trimStart, trimStart, List.dropWhile_append, none]
  split
  · next empty => rw [List.isEmpty_iff.mp empty]
  · exact trimEnd_append_blank all _

theorem trim_trimEnd (text : List Char) : trim (trimEnd text) = trim text := by
  obtain ⟨blanks, all, same⟩ := exists_trimEnd text
  calc
    trim (trimEnd text) = trim (trimEnd text ++ blanks) := (trim_append_blank all _).symm
    _ = trim text := by rw [← same]

private theorem trim_blank_append {blanks : List Char} (all : ∀ c ∈ blanks, isBlank c = true)
    (text : List Char) : trim (blanks ++ text) = trim text := by
  rw [trim, trimStart, List.dropWhile_append_of_pos all]
  rfl

theorem trim_cons_blank {c : Char} (blank : isBlank c = true) (text : List Char) :
    trim (c :: text) = trim text := by
  rw [trim, trimStart, List.dropWhile_cons_of_pos blank]
  rfl

theorem trimStart_append {word : List Char} (isWord : IsWord word) (rest : List Char) :
    trimStart (word ++ rest) = word ++ rest := by
  cases word with
  | nil => exact absurd rfl isWord.1
  | cons c word => exact trimStart_cons (isWord.2 c List.mem_cons_self) _

theorem trim_append {word : List Char} (isWord : IsWord word) (rest : List Char) :
    trim (word ++ rest) = word ++ trimEnd rest := by
  have solid : word.reverse.dropWhile isBlank = word.reverse := by
    cases reversed : word.reverse with
    | nil => rfl
    | cons c others =>
      have member : c ∈ word := List.mem_reverse.mp (reversed ▸ List.mem_cons_self)
      rw [List.dropWhile_cons, isWord.2 c member]
      rfl
  rw [trim, trimStart_append isWord, trimEnd, List.reverse_append, List.dropWhile_append, solid,
    trimEnd]
  split
  · next empty => simp [List.isEmpty_iff.mp empty]
  · simp

/-- Nothing is trimmed in front of what is left of an end. -/
theorem trimEnd_append {rest : List Char} (some : trimEnd rest ≠ []) (text : List Char) :
    trimEnd (text ++ rest) = text ++ trimEnd rest := by
  have left : rest.reverse.dropWhile isBlank ≠ [] := mt List.reverse_eq_nil_iff.mpr some
  rw [trimEnd, List.reverse_append, List.dropWhile_append, if_neg (by simpa using left),
    List.reverse_append, List.reverse_reverse]
  rfl

theorem trimEnd_of_solid {c : Char} (solid : isBlank c = false) (text : List Char) :
    trimEnd (text ++ [c]) = text ++ [c] := by
  have alone : trimEnd [c] = [c] := by simp [trimEnd, solid]
  rw [trimEnd_append (by simp [alone]), alone]

private theorem trimStart_unwords {ws : List (List Char)} (all : ∀ word ∈ ws, IsWord word) :
    trimStart (unwords ws) = unwords ws := by
  match ws with
  | [] => rfl
  | [word] =>
    rw [unwords_singleton, ← List.append_nil word]
    exact trimStart_append (all word List.mem_cons_self) []
  | first :: second :: others =>
    rw [unwords_cons_cons]
    exact trimStart_append (all first List.mem_cons_self) _

private theorem trimEnd_unwords {ws : List (List Char)} (all : ∀ word ∈ ws, IsWord word) :
    trimEnd (unwords ws) = unwords ws := by
  induction ws with
  | nil => rfl
  | cons first others ih =>
    rw [List.forall_mem_cons] at all
    cases others with
    | nil =>
      have alone := trim_append all.1 []
      rw [trim, trimStart_append all.1, List.append_nil] at alone
      rw [unwords_singleton, alone]
      exact List.append_nil first
    | cons second others =>
      have later := ih all.2
      have some := unwords_ne_nil all.2 (List.cons_ne_nil second others)
      rw [unwords_cons_cons, List.append_cons, trimEnd_append (later.symm ▸ some), later]

/-- A phrase has no blanks at its ends. -/
theorem trim_of_isPhrase {text : List Char} (phrase : IsPhrase text) : trim text = text := by
  have all : ∀ word ∈ words text, IsWord word := fun _ => isWord_of_mem_words
  rw [← phrase.2, squeeze, trim, trimStart_unwords all, trimEnd_unwords all]

/-! ## First words -/

/-- Whether a text is empty or begins with a blank, so that a word before it ends there. -/
def EndsWord (text : List Char) : Prop := ∀ c ∈ text.head?, isBlank c = true

theorem endsWord_cons {c : Char} (blank : isBlank c = true) (rest : List Char) :
    EndsWord (c :: rest) := by
  rintro first ⟨⟩
  exact blank

theorem beforeBlank_append {word rest : List Char} (isWord : IsWord word) (ends : EndsWord rest) :
    beforeBlank (word ++ rest) = word := by
  have solid : ∀ c ∈ word, (!isBlank c) = true := fun c member => by rw [isWord.2 c member]; rfl
  have before : rest.takeWhile (fun c => !isBlank c) = [] := by
    cases rest with
    | nil => rfl
    | cons c rest => rw [List.takeWhile_cons, ends c rfl]; rfl
  rw [beforeBlank, List.takeWhile_append_of_pos solid, before, List.append_nil]

theorem fromBlank_append {word rest : List Char} (isWord : IsWord word) (ends : EndsWord rest) :
    fromBlank (word ++ rest) = rest := by
  have solid : ∀ c ∈ word, (!isBlank c) = true := fun c member => by rw [isWord.2 c member]; rfl
  have after : rest.dropWhile (fun c => !isBlank c) = rest := by
    cases rest with
    | nil => rfl
    | cons c rest => rw [List.dropWhile_cons, ends c rfl]; rfl
  rw [fromBlank, List.dropWhile_append_of_pos solid, after]

/-- A word at the beginning of a text is its first word. -/
theorem firstWord?_append {word rest : List Char} (isWord : IsWord word) (ends : EndsWord rest) :
    firstWord? (word ++ rest) = some (word, trim rest) := by
  rw [firstWord?, trimStart_append isWord]
  split
  · next empty => exact absurd (List.append_eq_nil_iff.mp empty).1 isWord.1
  · rw [beforeBlank_append isWord ends, fromBlank_append isWord ends]

private theorem endsWord_trimEnd {text : List Char} (ends : EndsWord text) :
    EndsWord (trimEnd text) := by
  obtain ⟨blanks, -, same⟩ := exists_trimEnd text
  intro c head
  apply ends
  rw [same, List.head?_append, Option.mem_def.mp head]
  rfl

theorem firstWord?_trim_append {word rest : List Char} (isWord : IsWord word)
    (ends : EndsWord rest) : firstWord? (trim (word ++ rest)) = some (word, trim rest) := by
  rw [trim_append isWord, firstWord?_append isWord (endsWord_trimEnd ends), trim_trimEnd]

/-- A first word stands at the beginning of its text, behind blanks. -/
theorem exists_of_firstWord? {text word rest : List Char}
    (found : firstWord? text = some (word, rest)) :
    ∃ blanks tail, (∀ c ∈ blanks, isBlank c = true) ∧ IsWord word ∧ EndsWord tail ∧
      text = blanks ++ (word ++ tail) ∧ rest = trim tail := by
  obtain ⟨blanks, all, same⟩ := exists_trimStart text
  rw [firstWord?] at found
  split at found
  · contradiction
  · next some =>
    obtain ⟨rfl, rfl⟩ := Prod.mk.inj (Option.some.inj found)
    refine ⟨blanks, fromBlank (trimStart text), all, ⟨?_, ?_⟩, ?_, ?_, rfl⟩
    · cases start : trimStart text with
      | nil => exact absurd start some
      | cons c rest =>
        have solid := List.head?_dropWhile_not isBlank text
        rw [← trimStart, start] at solid
        rw [beforeBlank, List.takeWhile_cons, solid]
        exact List.cons_ne_nil c _
    · intro c member
      have solid := List.all_eq_true.mp List.all_takeWhile c member
      simpa using solid
    · intro c head
      have blank := List.head?_dropWhile_not (fun c => !isBlank c) (trimStart text)
      rw [← fromBlank, Option.mem_def.mp head] at blank
      simpa using blank
    · rw [beforeBlank, fromBlank, List.takeWhile_append_dropWhile, ← same]

theorem words_append {word rest : List Char} (isWord : IsWord word) (ends : EndsWord rest) :
    words (word ++ rest) = word :: words rest := by
  cases rest with
  | nil => rw [List.append_nil, words_eq_singleton isWord, words_nil]
  | cons c rest =>
    have blank := ends c rfl
    rw [words_append_cons blank, words_cons_blank blank, words_eq_singleton isWord]
    rfl

/-- The first word is the first of the words, and the rest has the others. -/
theorem words_of_firstWord? {text word rest : List Char}
    (found : firstWord? text = some (word, rest)) : words text = word :: words rest := by
  obtain ⟨blanks, tail, all, isWord, ends, rfl, rfl⟩ := exists_of_firstWord? found
  rw [words_blank_append all, words_append isWord ends, words_trim]

theorem words_of_firstWord?_none {text : List Char} (none : firstWord? text = none) :
    words text = [] := by
  rw [firstWord?] at none
  split at none
  · next empty => rw [← words_trimStart, empty, words_nil]
  · contradiction

/-- Only a text of blanks has no first word. -/
theorem firstWord?_eq_none_iff {text : List Char} :
    firstWord? text = none ↔ ∀ c ∈ text, isBlank c = true := by
  constructor
  · intro none
    obtain ⟨blanks, blank, same⟩ := exists_trimStart text
    rw [firstWord?] at none
    split at none
    · next empty =>
      rw [same, empty, List.append_nil]
      exact blank
    · contradiction
  · intro blank
    rw [firstWord?, trimStart_eq_nil blank]

/-- Blanks at the ends of a text do not matter to its first word. -/
theorem firstWord?_trim (text : List Char) : firstWord? (trim text) = firstWord? text := by
  cases found : firstWord? text with
  | none =>
    rw [firstWord?_eq_none_iff] at found ⊢
    exact fun c member => found c (mem_of_mem_trim member)
  | some first =>
    obtain ⟨blanks, tail, blank, isWord, ends, rfl, rest⟩ := exists_of_firstWord? found
    rw [trim_blank_append blank, firstWord?_trim_append isWord ends, ← rest]

theorem firstWord?_blank_append {blanks word tail : List Char}
    (blank : ∀ c ∈ blanks, isBlank c = true) (isWord : IsWord word) (ends : EndsWord tail) :
    firstWord? (blanks ++ (word ++ tail)) = some (word, trim tail) := by
  rw [← firstWord?_trim, trim_blank_append blank, firstWord?_trim_append isWord ends]

/-- A word in front of a phrase makes a phrase. -/
theorem isPhrase_spaced {word text : List Char} (isWord : IsWord word) (phrase : IsPhrase text) :
    IsPhrase (word ++ ' ' :: text) := by
  refine ⟨by simp, ?_⟩
  have squeezed := phrase.2
  rw [squeeze] at squeezed
  rw [squeeze, words_append isWord (endsWord_cons (by decide) text), words_cons_blank (by decide)]
  cases found : words text with
  | nil => exact absurd found phrase.words_ne_nil
  | cons first others =>
    rw [found] at squeezed
    rw [unwords_cons_cons, squeezed]

end RegisterMachine.Text
