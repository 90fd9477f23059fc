/-! # Blank characters and words

Text is handled as a list of characters. Blanks separate words; a word is a longest run of
characters that are not blank. Trimming removes blanks at the ends, and squeezing leaves the words
with one space between neighbours.
-/

namespace RegisterMachine.Text

/-- A character is blank when it has the Unicode property White_Space. -/
def isBlank (c : Char) : Bool :=
  let n := c.toNat
  (9 ≤ n && n ≤ 13) || n == 0x20 || n == 0x85 || n == 0xA0 || n == 0x1680 ||
    (0x2000 ≤ n && n ≤ 0x200A) || n == 0x2028 || n == 0x2029 || n == 0x202F || n == 0x205F ||
    n == 0x3000

def trimStart (text : List Char) : List Char := text.dropWhile isBlank

def trimEnd (text : List Char) : List Char := (text.reverse.dropWhile isBlank).reverse

def trim (text : List Char) : List Char := trimEnd (trimStart text)

/-- Cuts a text at every separator; there is one more piece than there are separators. -/
def pieces (separates : Char → Bool) : List Char → List (List Char)
  | [] => [[]]
  | c :: rest =>
    if separates c then [] :: pieces separates rest
    else
      match pieces separates rest with
      | [] => [[c]]
      | piece :: others => (c :: piece) :: others

def words (text : List Char) : List (List Char) :=
  (pieces isBlank text).filter fun word => !word.isEmpty

def unwords (words : List (List Char)) : List Char := List.intercalate [' '] words

/-- The text with every run of blanks made one space and none left at the ends. -/
def squeeze (text : List Char) : List Char := unwords (words text)

def beforeBlank (text : List Char) : List Char := text.takeWhile fun c => !isBlank c

def fromBlank (text : List Char) : List Char := text.dropWhile fun c => !isBlank c

/-- The first word and the trimmed text after it; a blank text has none. -/
def firstWord? (text : List Char) : Option (List Char × List Char) :=
  match trimStart text with
  | [] => none
  | start => some (beforeBlank start, trim (fromBlank start))

/-! ## Cutting at separators -/

theorem pieces_ne_nil (separates : Char → Bool) (text : List Char) :
    pieces separates text ≠ [] := by
  cases text with
  | nil => simp [pieces]
  | cons c rest =>
    rw [pieces]
    split
    · simp
    · split <;> simp

/-- A text is cut at a separator into what stands on its two sides. -/
theorem pieces_append_cons (separates : Char → Bool) {c : Char} (cuts : separates c = true)
    (left right : List Char) :
    pieces separates (left ++ c :: right) = pieces separates left ++ pieces separates right := by
  induction left with
  | nil => simp [pieces, cuts]
  | cons first rest ih =>
    simp only [List.cons_append, pieces, ih]
    split
    · rfl
    · obtain ⟨piece, others, start⟩ :=
        List.exists_cons_of_ne_nil (pieces_ne_nil separates rest)
      simp only [start, List.cons_append]

/-- A blank parts the words on its two sides. -/
theorem words_append_cons {c : Char} (blank : isBlank c = true) (left right : List Char) :
    words (left ++ c :: right) = words left ++ words right := by
  rw [words, pieces_append_cons isBlank blank, List.filter_append, words, words]

end RegisterMachine.Text
