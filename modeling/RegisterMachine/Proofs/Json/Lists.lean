import RegisterMachine.Proofs.Json.Number

/-! # Reading arrays and objects

Items and members stand between commas, with spaces around each of them. Whatever reads one of them
off the text reads them one after another, and the spaces are passed over on the way.
-/

namespace RegisterMachine.Json

/-! ## Tokens -/

theorem skipSpace_cons {c : Char} (token : isSpace c = false) (rest : List Char) :
    skipSpace (c :: rest) = c :: rest := by
  rw [skipSpace, List.dropWhile_cons, token]
  rfl

theorem mark_colon (rest : List Char) : mark ':' (':' :: rest) = .ok ((), rest) := rfl

/-- Whether a text begins with a token that does not end an array. -/
def OpensItem (text : List Char) : Prop :=
  ∃ c rest, text = c :: rest ∧ isSpace c = false ∧ c ≠ ']'

private theorem OpensItem.append {text : List Char} (opens : OpensItem text) (rest : List Char) :
    OpensItem (text ++ rest) := by
  obtain ⟨c, tail, rfl, token, goes⟩ := opens
  exact ⟨c, tail ++ rest, rfl, token, goes⟩

/-- The text of an item or a member, behind a comma unless it is the first. -/
def separated : Bool → List Char → List Char
  | true, text => text
  | false, text => ',' :: text

private theorem head?_append {text : List Char} {c : Char} (head : text.head? = some c)
    (rest : List Char) : (text ++ rest).head? = some c := by
  rw [List.head?_append, head]
  rfl

/-! ## Spaces -/

/-- Whether a text holds nothing but spaces. -/
def IsSpaces (text : List Char) : Prop := ∀ c ∈ text, isSpace c = true

instance (text : List Char) : Decidable (IsSpaces text) :=
  List.decidableBAll _ text

theorem isSpaces_nil : IsSpaces [] := List.forall_mem_nil _

section Spaces

variable {spaces : List Char} (blank : IsSpaces spaces)
include blank

theorem skipSpace_append (rest : List Char) : skipSpace (spaces ++ rest) = skipSpace rest :=
  List.dropWhile_append_of_pos blank

theorem mark_append {wanted : Char} (token : isSpace wanted = false) (rest : List Char) :
    mark wanted (spaces ++ wanted :: rest) = .ok ((), rest) := by
  rw [mark, skipSpace_append blank, skipSpace_cons token]
  exact if_pos rfl

private theorem hasItem_append (first : Bool) (rest : List Char) :
    hasItem first (spaces ++ rest) = hasItem first rest := by
  rw [hasItem, hasItem, skipSpace_append blank]

private theorem hasMember_append (first : Bool) (rest : List Char) :
    hasMember first (spaces ++ rest) = hasMember first rest := by
  rw [hasMember, hasMember, skipSpace_append blank]

private theorem itemsFrom_append {σ : Type} (reader : σ → Reader σ) (bound : List Char)
    (first : Bool) (state : σ) (rest : List Char) :
    itemsFrom reader bound first state (spaces ++ rest) =
      itemsFrom reader bound first state rest := by
  cases bound with
  | nil => rfl
  | cons b bound => rw [itemsFrom, itemsFrom, hasItem_append blank]

private theorem membersFrom_append {σ : Type} (reader : σ → Reader σ) (bound : List Char)
    (first : Bool) (state : σ) (rest : List Char) :
    membersFrom reader bound first state (spaces ++ rest) =
      membersFrom reader bound first state rest := by
  cases bound with
  | nil => rfl
  | cons b bound => rw [membersFrom, membersFrom, hasMember_append blank]

private theorem endsNumber_spaces {rest : List Char} (ends : EndsNumber rest) :
    EndsNumber (spaces ++ rest) := by
  cases spaces with
  | nil => exact ends
  | cons c spaces =>
    have space := blank c List.mem_cons_self
    simp only [isSpace, Bool.or_eq_true, beq_iff_eq] at space
    rcases space with ((rfl | rfl) | rfl) | rfl <;> exact endsNumber_cons (by decide)

private theorem hasItem_separated (first : Bool) {text : List Char} (opens : OpensItem text) :
    hasItem first (separated first (spaces ++ text)) = .ok (true, text) := by
  obtain ⟨c, rest, rfl, token, goes⟩ := opens
  cases first with
  | true =>
    rw [separated, hasItem_append blank, hasItem, skipSpace_cons token]
    split
    · contradiction
    · next same =>
      cases same
      contradiction
    · next same =>
      cases same
      rfl
  | false =>
    rw [separated, hasItem, skipSpace_cons (by decide)]
    split
    · contradiction
    · next same => cases same
    · next same =>
      cases same
      simp only [Bool.false_eq_true, if_false, if_true, skipSpace_append blank,
        skipSpace_cons token]
      split
      · contradiction
      · next same =>
        cases same
        contradiction
      · rfl

private theorem hasMember_separated (first : Bool) {text : List Char}
    (opens : text.head? = some '"') :
    hasMember first (separated first (spaces ++ text)) = .ok (true, text) := by
  obtain ⟨rest, rfl⟩ := List.head?_eq_some_iff.mp opens
  cases first with
  | true => rw [separated, hasMember_append blank]; rfl
  | false =>
    rw [separated, hasMember, skipSpace_cons (by decide)]
    split
    · contradiction
    · next same => cases same
    · next same =>
      cases same
      simp only [Bool.false_eq_true, if_false, if_true, skipSpace_append blank]
      rfl

end Spaces

/-! ## Arrays and objects -/

def joined : List (List Char) → List Char
  | [] => []
  | text :: others => text ++ others.flatMap (separated false)

structure Piece where
  before : List Char
  text : List Char
  after : List Char
  blankBefore : IsSpaces before
  blankAfter : IsSpaces after

namespace Piece

def written (piece : Piece) : List Char := piece.before ++ (piece.text ++ piece.after)

def bare (text : List Char) : Piece := ⟨[], text, [], isSpaces_nil, isSpaces_nil⟩

@[simp] theorem text_bare (text : List Char) : (bare text).text = text := rfl

@[simp] theorem written_bare (text : List Char) : (bare text).written = text := List.append_nil text

private theorem map_text_bare (texts : List (List Char)) : (texts.map bare).map text = texts := by
  simp [Function.comp_def]

private theorem map_written_bare (texts : List (List Char)) :
    (texts.map bare).map written = texts := by
  simp [Function.comp_def]

end Piece

/-- Whether a reader takes texts off one after another, whatever comes behind each of them. -/
inductive Consumes {σ : Type} (reader : σ → Reader σ) : σ → List (List Char) → σ → Prop
  | nil (state : σ) : Consumes reader state [] state
  | cons {state next final : σ} {text : List Char} {others : List (List Char)}
      (reads : ∀ rest, EndsNumber rest → reader state (text ++ rest) = .ok (next, rest))
      (later : Consumes reader next others final) : Consumes reader state (text :: others) final

private theorem length_le_length_separated (texts : List (List Char)) :
    texts.length ≤ (texts.flatMap (separated false)).length := by
  induction texts with
  | nil => exact Nat.le_refl 0
  | cons text others ih =>
    simp only [separated, List.flatMap_cons, List.length_append, List.length_cons] at ih ⊢
    omega

private theorem endsNumber_bracket (rest : List Char) : EndsNumber (']' :: rest) :=
  endsNumber_cons (by decide)

private theorem endsNumber_brace (rest : List Char) : EndsNumber ('\x7d' :: rest) :=
  endsNumber_cons (by decide)

private theorem endsNumber_separated (texts : List (List Char)) {rest : List Char}
    (ends : EndsNumber rest) : EndsNumber (texts.flatMap (separated false) ++ rest) := by
  cases texts with
  | nil => exact ends
  | cons text others => exact endsNumber_cons (by decide)

section Loops

variable {σ : Type} {reader : σ → Reader σ} {state final : σ}

/-- Values that are read in any state are read one after another. -/
theorem consumes_map {α : Type} {write : α → List Char} (add : σ → α → σ) {values : List α}
    (reads : ∀ value ∈ values, ∀ state rest, EndsNumber rest →
      reader state (write value ++ rest) = .ok (add state value, rest)) (state : σ) :
    Consumes reader state (values.map write) (values.foldl add state) := by
  induction values generalizing state with
  | nil => exact .nil state
  | cons value others ih =>
    rw [List.forall_mem_cons] at reads
    exact .cons (reads.1 state) (ih reads.2 (add state value))

/-- A piece is read with the spaces around it. -/
theorem itemsFrom_separated (first : Bool) {next : σ} {piece : Piece} {rest : List Char}
    (opens : OpensItem piece.text)
    (reads : ∀ rest, EndsNumber rest → reader state (piece.text ++ rest) = .ok (next, rest))
    (ends : EndsNumber rest) (b : Char) (bound : List Char) :
    itemsFrom reader (b :: bound) first state (separated first piece.written ++ rest) =
      itemsFrom reader bound false next rest := by
  have read := reads _ (endsNumber_spaces piece.blankAfter ends)
  have written : separated first piece.written ++ rest =
      separated first (piece.before ++ (piece.text ++ (piece.after ++ rest))) := by
    cases first <;> simp [separated, Piece.written]
  rw [written, itemsFrom, hasItem_separated piece.blankBefore first (opens.append _)]
  simp only [bind, Except.bind, if_true, read]
  exact itemsFrom_append piece.blankAfter reader bound false next rest

private theorem itemsFrom_consumes {pieces : List Piece} {bound : List Char}
    (consumes : Consumes reader state (pieces.map Piece.text) final)
    (opens : ∀ piece ∈ pieces, OpensItem piece.text) (long : pieces.length < bound.length)
    (rest : List Char) :
    itemsFrom reader bound false state
      ((pieces.map Piece.written).flatMap (separated false) ++ ']' :: rest) =
        .ok (final, rest) := by
  induction pieces generalizing bound state with
  | nil =>
    cases consumes
    cases bound with
    | nil => contradiction
    | cons b bound => rfl
  | cons piece others ih =>
    obtain _ | ⟨reads, later⟩ := consumes
    cases bound with
    | nil => contradiction
    | cons b bound =>
      rw [List.forall_mem_cons] at opens
      rw [List.map_cons, List.flatMap_cons, List.append_assoc,
        itemsFrom_separated false opens.1 reads
          (endsNumber_separated _ (endsNumber_bracket rest))]
      exact ih later opens.2 (Nat.lt_of_succ_lt_succ long)

/-- The items of an array are read one after another, with the spaces around them. -/
theorem items_pieces {pieces : List Piece} {spaces : List Char} (blank : IsSpaces spaces)
    (consumes : Consumes reader state (pieces.map Piece.text) final)
    (opens : ∀ piece ∈ pieces, OpensItem piece.text) (rest : List Char) :
    items reader state (spaces ++ (joined (pieces.map Piece.written) ++ ']' :: rest)) =
      .ok (final, rest) := by
  rw [items, itemsFrom_append blank]
  cases pieces with
  | nil =>
    cases consumes
    rfl
  | cons piece others =>
    obtain _ | ⟨reads, later⟩ := consumes
    have length := length_le_length_separated (others.map Piece.written)
    rw [List.length_map] at length
    rw [List.forall_mem_cons] at opens
    rw [List.map_cons, joined, List.append_assoc]
    apply (itemsFrom_separated true opens.1 reads
      (endsNumber_separated _ (endsNumber_bracket rest)) _ _).trans
    apply itemsFrom_consumes later opens.2
    simp only [List.length_append, List.length_cons]
    omega

/-- The items of an array without spaces are read one after another. -/
theorem items_joined {texts : List (List Char)} (consumes : Consumes reader state texts final)
    (opens : ∀ text ∈ texts, OpensItem text) (rest : List Char) :
    items reader state (joined texts ++ ']' :: rest) = .ok (final, rest) := by
  rw [← Piece.map_text_bare texts] at consumes
  rw [← Piece.map_written_bare texts]
  refine items_pieces isSpaces_nil consumes ?_ rest
  rw [List.forall_mem_map]
  exact opens

/-- A piece is read with the spaces around it. -/
theorem membersFrom_separated (first : Bool) {next : σ} {piece : Piece} {rest : List Char}
    (opens : piece.text.head? = some '"')
    (reads : ∀ rest, EndsNumber rest → reader state (piece.text ++ rest) = .ok (next, rest))
    (ends : EndsNumber rest) (b : Char) (bound : List Char) :
    membersFrom reader (b :: bound) first state (separated first piece.written ++ rest) =
      membersFrom reader bound false next rest := by
  have read := reads _ (endsNumber_spaces piece.blankAfter ends)
  have written : separated first piece.written ++ rest =
      separated first (piece.before ++ (piece.text ++ (piece.after ++ rest))) := by
    cases first <;> simp [separated, Piece.written]
  rw [written, membersFrom, hasMember_separated piece.blankBefore first (head?_append opens _)]
  simp only [bind, Except.bind, if_true, read]
  exact membersFrom_append piece.blankAfter reader bound false next rest

private theorem membersFrom_consumes {pieces : List Piece} {bound : List Char}
    (consumes : Consumes reader state (pieces.map Piece.text) final)
    (opens : ∀ piece ∈ pieces, piece.text.head? = some '"') (long : pieces.length < bound.length)
    (rest : List Char) :
    membersFrom reader bound false state
      ((pieces.map Piece.written).flatMap (separated false) ++ '\x7d' :: rest) =
        .ok (final, rest) := by
  induction pieces generalizing bound state with
  | nil =>
    cases consumes
    cases bound with
    | nil => contradiction
    | cons b bound => rfl
  | cons piece others ih =>
    obtain _ | ⟨reads, later⟩ := consumes
    cases bound with
    | nil => contradiction
    | cons b bound =>
      rw [List.forall_mem_cons] at opens
      rw [List.map_cons, List.flatMap_cons, List.append_assoc,
        membersFrom_separated false opens.1 reads
          (endsNumber_separated _ (endsNumber_brace rest))]
      exact ih later opens.2 (Nat.lt_of_succ_lt_succ long)

/-- The members of an object are read one after another, with the spaces around them. -/
theorem members_pieces {pieces : List Piece} {spaces : List Char} (blank : IsSpaces spaces)
    (consumes : Consumes reader state (pieces.map Piece.text) final)
    (opens : ∀ piece ∈ pieces, piece.text.head? = some '"') (rest : List Char) :
    members reader state (spaces ++ (joined (pieces.map Piece.written) ++ '\x7d' :: rest)) =
      .ok (final, rest) := by
  rw [members, membersFrom_append blank]
  cases pieces with
  | nil =>
    cases consumes
    rfl
  | cons piece others =>
    obtain _ | ⟨reads, later⟩ := consumes
    have length := length_le_length_separated (others.map Piece.written)
    rw [List.length_map] at length
    rw [List.forall_mem_cons] at opens
    rw [List.map_cons, joined, List.append_assoc]
    apply (membersFrom_separated true opens.1 reads
      (endsNumber_separated _ (endsNumber_brace rest)) _ _).trans
    apply membersFrom_consumes later opens.2
    simp only [List.length_append, List.length_cons]
    omega

/-- The members of an object without spaces are read one after another. -/
theorem members_joined {texts : List (List Char)} (consumes : Consumes reader state texts final)
    (opens : ∀ text ∈ texts, text.head? = some '"') (rest : List Char) :
    members reader state (joined texts ++ '\x7d' :: rest) = .ok (final, rest) := by
  rw [← Piece.map_text_bare texts] at consumes
  rw [← Piece.map_written_bare texts]
  refine members_pieces isSpaces_nil consumes ?_ rest
  rw [List.forall_mem_map]
  exact opens

end Loops

end RegisterMachine.Json
