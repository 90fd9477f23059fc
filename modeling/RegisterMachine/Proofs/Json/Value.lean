import RegisterMachine.Proofs.Json.Lists
import RegisterMachine.Proofs.Json.Text

/-! # JSON values read back

A value is exact when its integers fit in 64 bits, it has no reals and it is not too deep. An exact
value is read back from its compact form before any text that does not carry a number on.
-/

namespace RegisterMachine.Json

/-! ## Values -/

def writtenMember (member : String × Value) : List Char :=
  encodeText member.1 ++ ':' :: member.2.write

theorem write_array (items : List Value) :
    (Value.array items).write = '[' :: (joined (items.map Value.write) ++ [']']) := by
  have others (items : List Value) : writeItems items =
      (items.map Value.write).flatMap (separated false) ++ [']'] := by
    induction items with
    | nil => rw [writeItems]; rfl
    | cons item others ih => rw [writeItems, ih]; simp [separated]
  cases items with
  | nil => rw [Value.write]; rfl
  | cons first items => rw [Value.write, others]; simp [joined]

theorem write_object (members : List (String × Value)) :
    (Value.object members).write = '\x7b' :: (joined (members.map writtenMember) ++ ['\x7d']) := by
  have others (members : List (String × Value)) : writeMembers members =
      (members.map writtenMember).flatMap (separated false) ++ ['\x7d'] := by
    induction members with
    | nil => rw [writeMembers]; rfl
    | cons member others ih => rw [writeMembers, ih]; simp [separated, writtenMember]
  cases members with
  | nil => rw [Value.write]; rfl
  | cons first members => rw [Value.write, others]; simp [joined, writtenMember]

namespace Value

/-- A value without reals whose integers fit in 64 bits, with at most a number of levels. -/
def Exact : Nat → Value → Prop
  | _, null | _, boolean _ | _, text _ => True
  | _, integer value => -0x8000000000000000 ≤ value ∧ value < 0x10000000000000000
  | depth + 1, array items => ∀ item ∈ items, item.Exact depth
  | depth + 1, object members => ∀ member ∈ members, member.2.Exact depth
  | _, _ => False

/-- An integer begins with a minus sign or a digit. -/
theorem write_integer_head (value : Int) :
    ∃ c rest, (integer value).write = c :: rest ∧ (c = '-' ∨ isDigit c = true) := by
  rw [write, Text.toList_toString]
  split
  · exact ⟨_, _, rfl, .inl rfl⟩
  · cases written : Nat.toDigits 10 value.natAbs with
    | nil => exact absurd written Nat.toDigits_ne_nil
    | cons c rest => exact ⟨c, rest, rfl, .inr (Text.isDigit_of_toDigits_eq_cons written)⟩

end Value

theorem isSpace_of_numeral {c : Char} (numeral : c = '-' ∨ isDigit c = true) :
    isSpace c = false := by
  cases space : isSpace c with
  | false => rfl
  | true =>
    simp only [isSpace, Bool.or_eq_true, beq_iff_eq] at space
    rcases space with ((rfl | rfl) | rfl) | rfl <;> rcases numeral with minus | digit <;>
      contradiction

/-! ## Values by their first character -/

private theorem value_quote (depth : Nat) (rest : List Char) :
    Json.value depth ('"' :: rest) = (do
      let (found, rest) ← characters rest
      return (.text found, rest)) := by
  cases depth <;> rfl

private theorem value_bracket (depth : Nat) (rest : List Char) :
    Json.value (depth + 1) ('[' :: rest) = (do
      let (found, rest) ← items (fun read text => do
        let (found, rest) ← Json.value depth text
        return (found :: read, rest)) [] rest
      return (.array found.reverse, rest)) := rfl

private theorem value_brace (depth : Nat) (rest : List Char) :
    Json.value (depth + 1) ('\x7b' :: rest) = (do
      let (found, rest) ← members (fun read text => do
        let (name, rest) ← key text
        let (_, rest) ← mark ':' rest
        let (found, rest) ← Json.value depth rest
        return ((name, found) :: read, rest)) [] rest
      return (.object found.reverse, rest)) := rfl

private theorem value_numeral (depth : Nat) {c : Char} (numeral : c = '-' ∨ isDigit c = true)
    (rest : List Char) : Json.value depth (c :: rest) = numberValue (c :: rest) := by
  unfold Json.value
  rw [skipSpace_cons (isSpace_of_numeral numeral)]
  split
  · contradiction
  -- A numeral begins with none of the marks that the other branches ask for.
  all_goals
    next same =>
    cases same
    first
    | rcases numeral with minus | digit <;> contradiction
    | exact if_pos numeral

private theorem value_integer {depth : Nat} {value : Int} (low : -0x8000000000000000 ≤ value)
    (high : value < 0x10000000000000000) {rest : List Char} (ends : EndsNumber rest) :
    Json.value depth ((Value.integer value).write ++ rest) = .ok (.integer value, rest) := by
  have read := number_toString low high ends
  rw [← Value.write] at read
  obtain ⟨c, tail, written, head⟩ := Value.write_integer_head value
  rw [written, List.cons_append] at read ⊢
  rw [value_numeral depth head]
  simp only [numberValue, read, bind, Except.bind]
  rfl

private theorem value_text (depth : Nat) (text : String) (rest : List Char) :
    Json.value depth (encodeText text ++ rest) = .ok (.text text, rest) := by
  rw [encodeText_append, value_quote]
  simp only [characters_encode, bind, Except.bind]
  rfl

namespace Value

/-- An exact value begins with a token that is no closing bracket and, beside null, no `n`. -/
theorem Exact.write_head {depth : Nat} {value : Value} (exact : value.Exact depth) :
    ∃ c rest, value.write = c :: rest ∧ isSpace c = false ∧ c ≠ ']' ∧ (value ≠ null → c ≠ 'n') := by
  cases value with
  | null => exact ⟨_, _, write.eq_1, by decide, by decide, fun present => absurd rfl present⟩
  | boolean value =>
    cases value <;> exact ⟨_, _, by rw [write], by decide, by decide, fun _ => by decide⟩
  | integer value =>
    obtain ⟨c, rest, written, numeral⟩ := write_integer_head value
    refine ⟨c, rest, written, isSpace_of_numeral numeral, ?_, ?_⟩
    · rintro rfl
      rcases numeral with minus | digit <;> contradiction
    · rintro - rfl
      rcases numeral with minus | digit <;> contradiction
  | real value => cases depth <;> contradiction
  | text value => exact ⟨'"', _, by rw [write]; rfl, by decide, by decide, fun _ => by decide⟩
  | array items => exact ⟨'[', _, write_array items, by decide, by decide, fun _ => by decide⟩
  | object members =>
    exact ⟨'\x7b', _, write_object members, by decide, by decide, fun _ => by decide⟩

private theorem Exact.opensItem {depth : Nat} {value : Value} (exact : value.Exact depth) :
    OpensItem value.write := by
  obtain ⟨c, rest, written, token, goes, -⟩ := exact.write_head
  exact ⟨c, rest, written, token, goes⟩

end Value

theorem foldl_cons_reverse {α : Type} (values : List α) :
    (values.foldl (fun read value => value :: read) []).reverse = values := by
  simp

/-- An array is read back when its items are, one level further down. -/
theorem value_array {depth : Nat} {items : List Value}
    (opens : ∀ item ∈ items, OpensItem item.write)
    (reads : ∀ item ∈ items, ∀ rest, EndsNumber rest →
      Json.value depth (item.write ++ rest) = .ok (item, rest)) (rest : List Char) :
    Json.value (depth + 1) ((Value.array items).write ++ rest) = .ok (.array items, rest) := by
  rw [write_array, List.cons_append, value_bracket, List.append_assoc, List.singleton_append]
  rw [items_joined (consumes_map (fun read item => item :: read) ?_ []) ?_ rest]
  · simp only [bind, Except.bind, foldl_cons_reverse]
    rfl
  · intro item member read rest ends
    simp only [reads item member rest ends, bind, Except.bind]
    rfl
  · intro text member
    obtain ⟨item, present, rfl⟩ := List.mem_map.mp member
    exact opens item present

/-- An object is read back when its members are, one level further down. -/
theorem value_object {depth : Nat} {members : List (String × Value)}
    (reads : ∀ member ∈ members, ∀ rest, EndsNumber rest →
      Json.value depth (member.2.write ++ rest) = .ok (member.2, rest)) (rest : List Char) :
    Json.value (depth + 1) ((Value.object members).write ++ rest) =
      .ok (.object members, rest) := by
  rw [write_object, List.cons_append, value_brace, List.append_assoc, List.singleton_append]
  rw [members_joined (consumes_map (fun read member => member :: read) ?_ []) ?_ rest]
  · simp only [bind, Except.bind, foldl_cons_reverse]
    rfl
  · intro member present read rest ends
    simp only [writtenMember, List.append_assoc, List.cons_append, key_encodeText, bind,
      Except.bind, mark_colon, reads member present rest ends]
    rfl
  · intro text member
    obtain ⟨member, -, rfl⟩ := List.mem_map.mp member
    rfl

private theorem value_null (depth : Nat) (rest : List Char) :
    Json.value depth (Value.null.write ++ rest) = .ok (.null, rest) := by
  rw [Value.write]
  cases depth <;> rfl

private theorem value_boolean (depth : Nat) (value : Bool) (rest : List Char) :
    Json.value depth ((Value.boolean value).write ++ rest) = .ok (.boolean value, rest) := by
  cases value <;> rw [Value.write] <;> cases depth <;> rfl

/-- An exact value is read back from its compact form. -/
theorem value_write {depth : Nat} {value : Value} (exact : value.Exact depth) {rest : List Char}
    (ends : EndsNumber rest) : Json.value depth (value.write ++ rest) = .ok (value, rest) := by
  -- Items and members lie one level deeper than the value that holds them.
  induction depth generalizing value rest with
  | zero =>
    cases value with
    | null => exact value_null 0 rest
    | boolean value => exact value_boolean 0 value rest
    | integer value => exact value_integer exact.1 exact.2 ends
    | real value | array items | object members => contradiction
    | text value => rw [Value.write, value_text]
  | succ depth ih =>
    cases value with
    | null => exact value_null (depth + 1) rest
    | boolean value => exact value_boolean (depth + 1) value rest
    | integer value => exact value_integer exact.1 exact.2 ends
    | real value => contradiction
    | text value => rw [Value.write, value_text]
    | array items =>
      exact value_array (fun item member => (exact item member).opensItem)
        (fun item member rest ends => ih (exact item member) ends) rest
    | object members =>
      exact value_object (fun member present rest ends => ih (exact member present) ends) rest

/-- Whatever reads an exact value beside null also reads it where null may stand. -/
theorem nullable_write {α : Type} {reader : Reader α} {depth : Nat} {value : Value}
    (exact : value.Exact depth) (present : value ≠ .null) {result : α} {rest : List Char}
    (reads : reader (value.write ++ rest) = .ok (result, rest)) :
    nullable reader (value.write ++ rest) = .ok (some result, rest) := by
  obtain ⟨c, tail, written, token, -, null⟩ := exact.write_head
  rw [written, List.cons_append] at reads ⊢
  rw [nullable, skipSpace_cons token]
  split
  · next same =>
    cases same
    exact absurd rfl (null present)
  · simp only [reads, bind, Except.bind]
    rfl

theorem string_encodeText (wanted text : String) (rest : List Char) :
    string wanted (encodeText text ++ rest) = .ok (text, rest) := by
  rw [encodeText_append]
  exact characters_encode text rest

end RegisterMachine.Json
