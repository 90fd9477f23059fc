import RegisterMachine.Proofs.Json.Value

/-! # Any JSON text

The grammar of JSON, with spaces wherever they may stand. A value is read past however it is written
and however deep it is.
-/

namespace RegisterMachine.Json

/-- A member of an object as it may be written: what stands between the quotes of its key, and the
text of its value. -/
structure Member where
  before : List Char
  name : List Char
  gap : List Char
  value : Piece
  blankBefore : IsSpaces before
  blankGap : IsSpaces gap

namespace Member

def text (member : Member) : List Char :=
  '"' :: (member.name ++ '"' :: (member.gap ++ ':' :: (member.value.before ++ member.value.text)))

/-- The member with the spaces around it. -/
def piece (member : Member) : Piece :=
  ⟨member.before, member.text, member.value.after, member.blankBefore, member.value.blankAfter⟩

end Member

/-- An object as it may be written. The spaces behind its opening brace are all that an empty object
holds. -/
def objectText (spaces : List Char) (members : List Member) : List Char :=
  '\x7b' :: (spaces ++ (joined ((members.map Member.piece).map Piece.written) ++ ['\x7d']))

/-- Whether a text is a JSON value, without spaces around it. -/
inductive IsValue : List Char → Prop
  | null : IsValue ['n', 'u', 'l', 'l']
  | true : IsValue ['t', 'r', 'u', 'e']
  | false : IsValue ['f', 'a', 'l', 's', 'e']
  | number {literal : Literal} {text : List Char} (writes : literal.Writes text) : IsValue text
  | string {text : List Char} (body : IsBody text) : IsValue ('"' :: (text ++ ['"']))
  | array {spaces : List Char} {pieces : List Piece} (blank : IsSpaces spaces)
      (items : ∀ piece ∈ pieces, IsValue piece.text) :
      IsValue ('[' :: (spaces ++ (joined (pieces.map Piece.written) ++ [']'])))
  | object {spaces : List Char} {members : List Member} (blank : IsSpaces spaces)
      (names : ∀ member ∈ members, IsBody member.name)
      (values : ∀ member ∈ members, IsValue member.value.text) :
      IsValue (objectText spaces members)

private theorem IsValue.opensItem {text : List Char} (value : IsValue text) : OpensItem text := by
  cases value with
  | null | true | false => exact ⟨_, _, rfl, by decide, by decide⟩
  | string | array | object => exact ⟨_, _, rfl, by decide, by decide⟩
  | number writes =>
    obtain ⟨c, rest, rfl, numeral⟩ := writes.head
    refine ⟨c, rest, rfl, isSpace_of_numeral numeral, ?_⟩
    rintro rfl
    rcases numeral with minus | digit <;> contradiction

/-- A member as it is written without spaces. -/
def Member.compact (name : String) (value : List Char) : Member :=
  ⟨[], name.toList.flatMap encodeChar, [], .bare value, isSpaces_nil, isSpaces_nil⟩

/-- The compact form of an object is a text of it. -/
theorem write_object_eq (members : List (String × Value)) :
    (Value.object members).write =
      objectText [] (members.map fun member => .compact member.1 member.2.write) := by
  have written (member : String × Value) : writtenMember member =
      (Member.compact member.1 member.2.write).piece.written := by
    simp [writtenMember, encodeText_append, Member.compact, Member.piece, Member.text,
      Piece.written, Piece.bare]
  rw [write_object, objectText, List.nil_append, List.map_map, List.map_map]
  congr 3
  exact List.map_congr_left fun member _ => written member

/-- The key of a member is read, with the spaces before it. -/
theorem key_spells {spaces text : List Char} (blank : IsSpaces spaces) {name : String}
    (spells : Spells name.toList text) (rest : List Char) :
    key (spaces ++ '"' :: (text ++ '"' :: rest)) = .ok (name, rest) := by
  rw [key, mark_append blank (by decide)]
  exact characters_spells spells rest

theorem Member.key_text {member : Member} {name : String}
    (spells : Spells name.toList member.name) (rest : List Char) :
    key (member.text ++ rest) =
      .ok (name, member.gap ++ ':' :: (member.value.before ++ (member.value.text ++ rest))) := by
  have read := key_spells isSpaces_nil spells
  simp only [List.nil_append] at read
  simp only [text, List.cons_append, List.append_assoc, read]

theorem Member.mark_gap (member : Member) (rest : List Char) :
    mark ':' (member.gap ++ ':' :: rest) = .ok ((), rest) :=
  mark_append member.blankGap (by decide) rest

/-! ## Lengths -/

private theorem length_le_length_joined {texts : List (List Char)} {text : List Char}
    (member : text ∈ texts) : text.length ≤ (joined texts).length := by
  have later {texts : List (List Char)} (member : text ∈ texts) :
      text.length ≤ (texts.flatMap (separated false)).length := by
    obtain ⟨before, after, rfl⟩ := List.append_of_mem member
    simp only [List.flatMap_append, List.flatMap_cons, separated, List.length_append,
      List.length_cons]
    omega
  cases texts with
  | nil => contradiction
  | cons first others =>
    rw [joined, List.length_append]
    rcases List.mem_cons.mp member with rfl | member
    · exact Nat.le_add_right _ _
    · exact Nat.le_trans (later member) (Nat.le_add_left _ _)

private theorem Piece.length_le (piece : Piece) : piece.text.length ≤ piece.written.length := by
  rw [written, List.length_append, List.length_append]
  omega

private theorem Member.length_le (member : Member) :
    member.value.text.length ≤ member.piece.written.length := by
  have whole := member.piece.length_le
  simp only [piece, text, List.length_cons, List.length_append] at whole ⊢
  omega

/-! ## Reading past -/

private theorem skipValueFrom_append {spaces : List Char} (blank : IsSpaces spaces)
    (bound rest : List Char) : skipValueFrom bound (spaces ++ rest) = skipValueFrom bound rest := by
  cases bound with
  | nil => rfl
  | cons b bound => rw [skipValueFrom, skipValueFrom, skipSpace_append blank]

private theorem skipValueFrom_numeral {c : Char} (numeral : c = '-' ∨ isDigit c = true) (b : Char)
    (bound rest : List Char) :
    skipValueFrom (b :: bound) (c :: rest) = skipNumber (c :: rest) := by
  rw [skipValueFrom, skipSpace_cons (isSpace_of_numeral numeral)]
  split
  · contradiction
  -- A numeral begins with none of the marks that the other branches ask for.
  all_goals
    next same =>
    cases same
    first
    | rcases numeral with minus | digit <;> contradiction
    | exact if_pos numeral

private theorem skipValueFrom_bracket (b : Char) (bound rest : List Char) :
    skipValueFrom (b :: bound) ('[' :: rest) =
      items (fun _ => skipValueFrom bound) () rest := rfl

def skipMember (bound : List Char) : Unit → Reader Unit := fun _ text => do
  let (_, rest) ← mark '"' text
  let (_, rest) ← skipCharacters rest
  let (_, rest) ← mark ':' rest
  skipValueFrom bound rest

private theorem skipValueFrom_brace (b : Char) (bound rest : List Char) :
    skipValueFrom (b :: bound) ('\x7b' :: rest) = members (skipMember bound) () rest := rfl

private theorem skipMember_text {member : Member} (named : IsBody member.name) {bound : List Char}
    {rest : List Char}
    (reads : skipValueFrom bound (member.value.text ++ rest) = .ok ((), rest)) :
    skipMember bound () (member.text ++ rest) = .ok ((), rest) := by
  have quote (rest : List Char) : mark '"' ('"' :: rest) = .ok ((), rest) := rfl
  simp only [Member.text, List.cons_append, List.append_assoc, skipMember, quote,
    skipCharacters_isBody named, member.mark_gap, skipValueFrom_append member.value.blankBefore,
    reads, bind, Except.bind]

/-- A value is read past within any bound that is longer than it. -/
theorem skipValueFrom_isValue {text : List Char} (value : IsValue text) {bound : List Char}
    (long : text.length < bound.length) {rest : List Char} (ends : EndsNumber rest) :
    skipValueFrom bound (text ++ rest) = .ok ((), rest) := by
  induction value generalizing bound rest <;>
    obtain ⟨b, bound, rfl⟩ := List.exists_cons_of_length_pos (Nat.zero_lt_of_lt long)
  case null | true | false => rfl
  case number writes =>
    have read := skipNumber_append writes ends
    obtain ⟨c, tail, rfl, numeral⟩ := writes.head
    rw [List.cons_append, skipValueFrom_numeral numeral]
    exact read
  case string body =>
    have read := skipCharacters_isBody body rest
    rw [List.cons_append, List.append_assoc]
    exact read
  case array spaces pieces blank items ih =>
    have reads : ∀ piece ∈ pieces, ∀ (state : Unit) (rest : List Char), EndsNumber rest →
        skipValueFrom bound (piece.text ++ rest) = .ok (state, rest) := by
      intro piece member _ rest ends
      have inside := length_le_length_joined (List.mem_map_of_mem (f := Piece.written) member)
      have shorter := piece.length_le
      simp only [List.length_cons, List.length_append] at long
      exact ih piece member (by omega) ends
    rw [List.cons_append, List.append_assoc, List.append_assoc, skipValueFrom_bracket]
    exact items_pieces blank (consumes_map (fun state _ => state) reads ())
      (fun piece member => (items piece member).opensItem) rest
  case object spaces members blank names values ih =>
    have reads : ∀ member ∈ members, ∀ (state : Unit) (rest : List Char), EndsNumber rest →
        skipMember bound () (member.text ++ rest) = .ok (state, rest) := by
      intro member present _ rest ends
      have inside := length_le_length_joined
        (List.mem_map_of_mem (f := Piece.written) (List.mem_map_of_mem (f := Member.piece) present))
      have shorter := member.length_le
      simp only [objectText, List.length_cons, List.length_append] at long
      exact skipMember_text (names member present) (ih member present (by omega) ends)
    have consumes : Consumes (skipMember bound) () ((members.map Member.piece).map Piece.text)
        () := by
      rw [List.map_map]
      exact consumes_map (fun state _ => state) reads ()
    rw [objectText, List.cons_append, List.append_assoc, List.append_assoc, skipValueFrom_brace]
    refine members_pieces blank consumes ?_ rest
    rw [List.forall_mem_map]
    exact fun _ _ => rfl

/-- A value is read past, with the spaces before it. -/
theorem skipValue_isValue {spaces text : List Char} (blank : IsSpaces spaces)
    (value : IsValue text) {rest : List Char} (ends : EndsNumber rest) :
    skipValue (spaces ++ (text ++ rest)) = .ok ((), rest) := by
  rw [skipValue, skipValueFrom_append blank, skipValueFrom_isValue value _ ends]
  simp only [bound, List.length_cons, List.length_append]
  omega

end RegisterMachine.Json
