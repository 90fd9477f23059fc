import RegisterMachine.Proofs.Listing.Layout

/-! # Seams of a line

Where a line is cut is a matter of counting quotes from its start: a mark stands open if an even
number of them stands before it. The first open hash mark begins the comment, and the chunks joined
by semicolons again are the line up to there. Their seams are the open semicolons before it.
-/

namespace RegisterMachine.Listing

/-- Whether a mark stands at a position of a line with no quote open, given whether one is open
before the line. -/
def OpenAt (quoted : Bool) (text : List Char) (mark : Char) (position : Nat) : Prop :=
  text[position]? = some mark ∧ Closes quoted (text.take position)

instance (quoted : Bool) (text : List Char) (mark : Char) (position : Nat) :
    Decidable (OpenAt quoted text mark position) :=
  inferInstanceAs (Decidable (_ ∧ (_ : Nat) = _))

/-- The position of the first open hash mark of a line, or of the line's end if there is none. -/
def commentStart (quoted : Bool) (line : List Char) : Nat :=
  ((List.range line.length).find? (OpenAt quoted line '#' ·)).getD line.length

/-- The positions at which pieces that are joined by semicolons meet in the joined text. -/
def seams : List (List Char) → List Nat
  | piece :: next :: others => piece.length :: (seams (next :: others)).map (piece.length + 1 + ·)
  | _ => []

/-! ## Joining -/

private theorem intercalate_extend (c : Char) (pieces : List (List Char)) :
    List.intercalate [';'] (extend c pieces) = c :: List.intercalate [';'] pieces := by
  match pieces with
  | [] => rfl
  | [piece] => rw [extend, List.intercalate_singleton, List.intercalate_singleton]
  | piece :: next :: others =>
    rw [extend, List.intercalate_cons_cons, List.intercalate_cons_cons]
    rfl

private theorem seams_extend (c : Char) (pieces : List (List Char)) :
    seams (extend c pieces) = (seams pieces).map (· + 1) := by
  match pieces with
  | [] | [_] => rfl
  | piece :: next :: others =>
    rw [extend, seams, seams, List.map_cons, List.map_map, List.length_cons]
    congr 2
    funext position
    exact Nat.add_right_comm (piece.length + 1) 1 position

/-- An empty piece in front puts a semicolon in front. -/
theorem seams_nil_cons {pieces : List (List Char)} (some : pieces ≠ []) :
    seams ([] :: pieces) = 0 :: (seams pieces).map (· + 1) := by
  obtain ⟨piece, others, rfl⟩ := List.exists_cons_of_ne_nil some
  rw [seams]
  congr 2
  funext position
  exact Nat.add_comm 1 position

private theorem length_eq_length_seams {pieces : List (List Char)} (some : pieces ≠ []) :
    pieces.length = (seams pieces).length + 1 := by
  induction pieces with
  | nil => exact absurd rfl some
  | cons piece others ih =>
    cases others with
    | nil => rfl
    | cons next others =>
      rw [List.length_cons, ih (List.cons_ne_nil next others), seams, List.length_cons,
        List.length_map]

/-! ## Open marks -/

section Lines

variable {quoted : Bool} {c mark : Char} {rest : List Char} {position : Nat}

private theorem openAt_zero_iff : OpenAt quoted (c :: rest) mark 0 ↔ c = mark ∧ quoted = false := by
  rw [OpenAt, List.take_zero, closes_nil_iff, List.getElem?_cons_zero, Option.some_inj]

private theorem openAt_succ_iff :
    OpenAt quoted (c :: rest) mark (position + 1) ↔
      OpenAt (opened quoted c) rest mark position := by
  rw [OpenAt, OpenAt, List.take_succ_cons, closes_cons_iff, List.getElem?_cons_succ]

private theorem commentStart_cons (quoted : Bool) (c : Char) (rest : List Char) :
    commentStart quoted (c :: rest) =
      if c = '#' ∧ quoted = false then 0 else commentStart (opened quoted c) rest + 1 := by
  rw [commentStart, List.length_cons, List.range_succ_eq_map, List.find?_cons, List.find?_map]
  simp only [openAt_zero_iff]
  split
  · next first =>
    rw [if_pos (of_decide_eq_true first)]
    rfl
  · next later =>
    rw [if_neg (of_decide_eq_false later), ← Nat.succ_eq_add_one, Option.getD_map]
    simp only [Function.comp_def, Nat.succ_eq_add_one, openAt_succ_iff, commentStart]

private theorem filter_openAt_range_succ (quoted : Bool) (c : Char) (rest : List Char)
    (length : Nat) :
    (List.range (length + 1)).filter (OpenAt quoted (c :: rest) mark ·) =
      (if c = mark ∧ quoted = false then [0] else []) ++
        ((List.range length).filter (OpenAt (opened quoted c) rest mark ·)).map (· + 1) := by
  have later : ((List.range length).map Nat.succ).filter (OpenAt quoted (c :: rest) mark ·) =
      ((List.range length).filter (OpenAt (opened quoted c) rest mark ·)).map (· + 1) := by
    rw [List.filter_map]
    simp only [Function.comp_def, Nat.succ_eq_add_one, openAt_succ_iff]
  rw [List.range_succ_eq_map, List.filter_cons, later]
  simp only [openAt_zero_iff, decide_eq_true_eq]
  split <;> rfl

end Lines

/-! ## Chunks -/

section Chunks

variable (quoted : Bool)

/-- An open semicolon or hash mark cuts a line, and any other character stays in its chunk. -/
theorem chunksFrom_cons_cases (c : Char) :
    (quoted = false ∧ (c = ';' ∨ c = '#')) ∨
      (¬(c = ';' ∧ quoted = false) ∧ ¬(c = '#' ∧ quoted = false) ∧
        ∀ rest, chunksFrom quoted (c :: rest) = extend c (chunksFrom (opened quoted c) rest)) := by
  refine or_iff_not_imp_left.mpr fun whole => ?_
  refine ⟨?_, ?_, (chunksFrom_cases quoted c).resolve_left whole⟩
  · rintro ⟨semicolon, unquoted⟩
    exact whole ⟨unquoted, .inl semicolon⟩
  · rintro ⟨hash, unquoted⟩
    exact whole ⟨unquoted, .inr hash⟩

private theorem chunksFrom_semicolon (rest : List Char) :
    chunksFrom false (';' :: rest) = [] :: chunksFrom false rest := rfl

private theorem chunksFrom_hash (rest : List Char) : chunksFrom false ('#' :: rest) = [[]] := rfl

variable (line : List Char)

private theorem intercalate_chunksFrom :
    List.intercalate [';'] (chunksFrom quoted line) = line.take (commentStart quoted line) := by
  induction line generalizing quoted with
  | nil => rfl
  | cons c rest ih =>
    rw [commentStart_cons]
    rcases chunksFrom_cons_cases quoted c with ⟨rfl, rfl | rfl⟩ | ⟨-, plain, stays⟩
    · rw [chunksFrom_semicolon, List.intercalate_cons_of_ne_nil (chunksFrom_ne_nil false rest), ih,
        if_neg (by decide)]
      rfl
    · rw [chunksFrom_hash, if_pos ⟨rfl, rfl⟩]
      rfl
    · rw [stays, intercalate_extend, ih, if_neg plain, List.take_succ_cons]

private theorem seams_chunksFrom :
    seams (chunksFrom quoted line) =
      (List.range (commentStart quoted line)).filter (OpenAt quoted line ';' ·) := by
  induction line generalizing quoted with
  | nil => rfl
  | cons c rest ih =>
    rw [commentStart_cons]
    rcases chunksFrom_cons_cases quoted c with ⟨rfl, rfl | rfl⟩ | ⟨whole, plain, stays⟩
    · rw [chunksFrom_semicolon, seams_nil_cons (chunksFrom_ne_nil false rest), ih,
        if_neg (by decide), filter_openAt_range_succ, if_pos ⟨rfl, rfl⟩]
      rfl
    · rw [chunksFrom_hash, if_pos ⟨rfl, rfl⟩]
      rfl
    · rw [stays, seams_extend, ih, if_neg plain, filter_openAt_range_succ, if_neg whole,
        List.nil_append]

end Chunks

/-- The chunks of a line, joined by semicolons, are the line up to its comment. They are joined at
the semicolons there that have an even number of quotes before them, and there is one chunk more
than there are such semicolons. -/
theorem chunks_lossless (text : List Char) :
    let cut := commentStart false text
    List.intercalate [';'] (chunks text) = text.take cut ∧
    (∀ position, position ∈ seams (chunks text) ↔
      position < cut ∧ text[position]? = some ';' ∧ (text.take position).count '"' % 2 = 0) ∧
    (chunks text).length = (List.range cut).countP (OpenAt false text ';' ·) + 1 := by
  intro cut
  have joints := seams_chunksFrom false text
  refine ⟨intercalate_chunksFrom false text, ?_, ?_⟩
  · intro position
    rw [chunks, joints, List.mem_filter, List.mem_range, decide_eq_true_eq]
    rfl
  · rw [chunks, length_eq_length_seams (chunksFrom_ne_nil false text), joints,
      ← List.countP_eq_length_filter]

example : commentStart false "a;\"b;#\";c#;d".toList = 9 ∧
    seams (chunks "a;\"b;#\";c#;d".toList) = [1, 7] := by decide +kernel

end RegisterMachine.Listing
