import Mathlib.Algebra.Ring.Nat
import RegisterMachine.Listing.Statement

/-! # Chunks of a line

Semicolons and hash marks cut a line where no quote is open. A line whose marks are all quoted is
one chunk, and any other line loses at least one of its marks when it is cut.
-/

namespace RegisterMachine.Listing

/-- Whether a character cuts a line where no quote is open. -/
def isMark (c : Char) : Bool := c == ';' || c == '#'

def marks (text : List Char) : Nat := text.countP isMark

/-- Whether an odd number of quotes stands before each mark of a line. -/
def IsOneStatement (line : List Char) : Prop :=
  ∀ before mark after, line = before ++ mark :: after → isMark mark = true →
    before.count '"' % 2 = 1

/-- Whether the marks of the rest of a line are quoted, given whether a quote is open. -/
def quotesMarks (quoted : Bool) : List Char → Bool
  | [] => true
  | c :: rest =>
    if c = '"' then quotesMarks (!quoted) rest
    else (quoted || !isMark c) && quotesMarks quoted rest

/-- Whether a quote is open behind a character, given whether one is open before it. -/
def opened (quoted : Bool) (c : Char) : Bool := if c = '"' then !quoted else quoted

/-- A quote changes whether the quotes of a line are even, with one that is open already. -/
theorem count_quotes_cons (quoted : Bool) (c : Char) (line : List Char) :
    ((c :: line).count '"' + quoted.toNat) % 2 =
      (line.count '"' + (opened quoted c).toNat) % 2 := by
  rw [opened, List.count_cons]
  by_cases quote : c = '"'
  · rw [if_pos quote, if_pos (beq_iff_eq.mpr quote)]
    cases quoted with
    | true =>
      rw [Bool.not_true, Bool.toNat_true, Bool.toNat_false]
      omega
    | false => rfl
  · rw [if_neg quote, if_neg (mt beq_iff_eq.mp quote), Nat.add_zero]

theorem marks_append (left right : List Char) : marks (left ++ right) = marks left + marks right :=
  List.countP_append

theorem marks_cons_of_not_isMark {c : Char} (plain : isMark c = false) (rest : List Char) :
    marks (c :: rest) = marks rest := List.countP_cons_of_neg (by simp [plain])

/-! ## Quoted marks -/

private theorem forall_split_cons {c : Char} {rest : List Char}
    {property : List Char → Char → Prop} :
    (∀ before mark after, c :: rest = before ++ mark :: after → property before mark) ↔
      property [] c ∧
        ∀ before mark after, rest = before ++ mark :: after → property (c :: before) mark := by
  constructor
  · intro all
    refine ⟨all [] c rest rfl, ?_⟩
    rintro before mark after rfl
    exact all (c :: before) mark after rfl
  · rintro ⟨first, later⟩ before mark after same
    cases before with
    | nil =>
      cases same
      exact first
    | cons b before =>
      cases same
      exact later before mark after rfl

/-- The rest of a line quotes its marks when an odd number of quotes stands before each of them,
with one that is open already. -/
theorem quotesMarks_iff {quoted : Bool} {line : List Char} :
    quotesMarks quoted line = true ↔
      ∀ before mark after, line = before ++ mark :: after → isMark mark = true →
        (before.count '"' + quoted.toNat) % 2 = 1 := by
  induction line generalizing quoted with
  | nil => simp [quotesMarks]
  | cons c rest ih =>
    rw [quotesMarks, forall_split_cons]
    split
    · next quote =>
      subst quote
      have first : isMark '"' = true → (List.count '"' [] + quoted.toNat) % 2 = 1 := by
        intro mark
        contradiction
      simp only [ih, count_quotes_cons, opened, if_true]
      exact ⟨fun later => ⟨first, later⟩, And.right⟩
    · next plain =>
      have first : (isMark c = true → (List.count '"' [] + quoted.toNat) % 2 = 1) ↔
          (quoted || !isMark c) = true := by
        cases quoted <;> cases isMark c <;> decide
      simp only [first, Bool.and_eq_true, ih, List.count_cons_of_ne plain]

theorem quotesMarks_false_iff {line : List Char} :
    quotesMarks false line = true ↔ IsOneStatement line := by
  rw [quotesMarks_iff]
  rfl

instance (line : List Char) : Decidable (IsOneStatement line) :=
  decidable_of_iff _ quotesMarks_false_iff

/-! ## Cutting -/

/-- A character stays in its chunk, unless it is a mark where no quote is open. -/
theorem chunksFrom_cases (quoted : Bool) (c : Char) :
    (quoted = false ∧ (c = ';' ∨ c = '#')) ∨
      ∀ rest, chunksFrom quoted (c :: rest) = extend c (chunksFrom (opened quoted c) rest) := by
  by_cases quote : c = '"'
  · refine .inr fun rest => ?_
    rw [chunksFrom, opened, if_pos quote, if_pos quote]
  · rw [opened, if_neg quote]
    cases quoted with
    | true => exact .inr fun rest => by rw [chunksFrom, if_neg quote, if_pos rfl]
    | false =>
      by_cases mark : c = ';' ∨ c = '#'
      · exact .inl ⟨rfl, mark⟩
      · rw [not_or] at mark
        refine .inr fun rest => ?_
        rw [chunksFrom, if_neg quote, if_neg Bool.false_ne_true, if_neg mark.1, if_neg mark.2]

private theorem marks_extend (c : Char) (pieces : List (List Char)) :
    ((extend c pieces).map marks).sum = marks [c] + (pieces.map marks).sum := by
  cases pieces with
  | nil => simp [extend]
  | cons piece others =>
    simp only [extend, List.map_cons, List.sum_cons]
    rw [← List.singleton_append, marks_append]
    omega

theorem chunksFrom_of_quotesMarks {quoted : Bool} {line : List Char}
    (quotes : quotesMarks quoted line = true) : chunksFrom quoted line = [line] := by
  induction line generalizing quoted with
  | nil => rfl
  | cons c rest ih =>
    rw [quotesMarks] at quotes
    rw [chunksFrom]
    split at quotes
    · next quote => rw [if_pos quote, ih quotes, extend]
    · next plain =>
      rw [Bool.and_eq_true] at quotes
      rw [if_neg plain]
      cases quoted with
      | true => rw [if_pos rfl, ih quotes.2, extend]
      | false =>
        have unmarked : isMark c = false := by simpa using quotes.1
        rw [isMark, Bool.or_eq_false_iff] at unmarked
        rw [if_neg Bool.false_ne_true, if_neg (ne_of_beq_false unmarked.1),
          if_neg (ne_of_beq_false unmarked.2), ih quotes.2, extend]

/-- Cutting never adds marks, and it takes some away where one is not quoted. -/
theorem marks_chunksFrom (quoted : Bool) (line : List Char) :
    ((chunksFrom quoted line).map marks).sum ≤ marks line ∧
      (quotesMarks quoted line = false →
        ((chunksFrom quoted line).map marks).sum < marks line) := by
  induction line generalizing quoted with
  | nil => simp [chunksFrom, quotesMarks]
  | cons c rest ih =>
    -- Wherever the character stays in a chunk, the rest of the line decides.
    have split : marks (c :: rest) = marks [c] + marks rest := marks_append [c] rest
    have extended (quoted : Bool) :
        ((extend c (chunksFrom quoted rest)).map marks).sum ≤ marks (c :: rest) ∧
          (quotesMarks quoted rest = false →
            ((extend c (chunksFrom quoted rest)).map marks).sum < marks (c :: rest)) := by
      obtain ⟨most, fewer⟩ := ih quoted
      rw [marks_extend, split]
      exact ⟨Nat.add_le_add_left most _, fun unquoted => Nat.add_lt_add_left (fewer unquoted) _⟩
    rw [chunksFrom, quotesMarks]
    split
    · exact extended (!quoted)
    · cases quoted with
      | true => exact extended true
      | false =>
        rw [if_neg Bool.false_ne_true]
        split
        · next semicolon =>
          have cut : marks [c] = 1 := by rw [semicolon]; rfl
          have later := (ih false).1
          simp only [List.map_cons, List.sum_cons, marks, List.countP_nil] at later cut split ⊢
          omega
        · split
          · next hash =>
            have cut : marks [c] = 1 := by rw [hash]; rfl
            simp only [List.map_cons, List.map_nil, List.sum_cons, List.sum_nil, marks,
              List.countP_nil] at cut split ⊢
            omega
          · next semicolon hash =>
            have plain : (false || !isMark c) = true := by
              rw [isMark, beq_false_of_ne semicolon, beq_false_of_ne hash]
              rfl
            rw [plain, Bool.true_and]
            exact extended false

/-- A line of one statement is its only chunk. -/
theorem chunks_eq_singleton {line : List Char} (one : IsOneStatement line) :
    chunks line = [line] := chunksFrom_of_quotesMarks (quotesMarks_false_iff.mpr one)

theorem marks_chunks_le (line : List Char) : ((chunks line).map marks).sum ≤ marks line :=
  (marks_chunksFrom false line).1

/-- A line that keeps its marks when it is cut is one statement. -/
theorem isOneStatement_of_marks_le {line : List Char}
    (kept : marks line ≤ ((chunks line).map marks).sum) : IsOneStatement line := by
  cases quotes : quotesMarks false line with
  | true => exact quotesMarks_false_iff.mp quotes
  | false => exact absurd ((marks_chunksFrom false line).2 quotes) (Nat.not_lt.mpr kept)

private theorem of_mem_extend {first c : Char} {pieces : List (List Char)} {piece : List Char}
    (cut : piece ∈ extend first pieces) (member : c ∈ piece) :
    c = first ∨ ∃ piece ∈ pieces, c ∈ piece := by
  cases pieces with
  | nil =>
    cases List.mem_singleton.mp cut
    exact .inl (List.mem_singleton.mp member)
  | cons head others =>
    rcases List.mem_cons.mp cut with rfl | later
    · rcases List.mem_cons.mp member with same | inside
      · exact .inl same
      · exact .inr ⟨head, List.mem_cons_self, inside⟩
    · exact .inr ⟨piece, List.mem_cons_of_mem head later, member⟩

/-- The chunks of a line have only characters of the line. -/
theorem mem_of_mem_chunksFrom {quoted : Bool} {line chunk : List Char}
    (cut : chunk ∈ chunksFrom quoted line) {c : Char} (member : c ∈ chunk) : c ∈ line := by
  induction line generalizing quoted chunk with
  | nil =>
    cases List.mem_singleton.mp cut
    exact member
  | cons first rest ih =>
    rcases chunksFrom_cases quoted first with ⟨rfl, rfl | rfl⟩ | stays
    · rcases List.mem_cons.mp cut with rfl | later
      · contradiction
      · exact List.mem_cons_of_mem _ (ih later member)
    · cases List.mem_singleton.mp cut
      contradiction
    · rw [stays] at cut
      rcases of_mem_extend cut member with rfl | ⟨piece, later, inside⟩
      · exact List.mem_cons_self
      · exact List.mem_cons_of_mem first (ih later inside)

end RegisterMachine.Listing
