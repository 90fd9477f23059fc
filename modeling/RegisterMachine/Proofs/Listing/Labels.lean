import Mathlib.Data.List.Nodup
import RegisterMachine.Listing.Labels

/-! # The labels of a listing

Labels are sound when each has a name and no two have the same one. Where they are not, the error is
that of the first label without a name or with the name of an earlier one. Sound labels are resolved
to the number of statements before the section that defines them.
-/

namespace RegisterMachine.Listing

/-- The labels of sections in the order of their definitions, each with its line. -/
def labelled (pieces : List Section) : List (Nat × String) :=
  pieces.flatMap fun piece => piece.labels.map fun label => (piece.line, label)

/-- Labels that have names, each a name of its own. -/
structure SoundLabels (labels : List (Nat × String)) : Prop where
  named : ∀ label ∈ labels, label.2 ≠ ""
  distinct : (labels.map Prod.snd).Nodup

instance : DecidablePred SoundLabels := fun labels =>
  decidable_of_iff ((∀ label ∈ labels, label.2 ≠ "") ∧ (labels.map Prod.snd).Nodup)
    ⟨fun both => ⟨both.1, both.2⟩, fun sound => ⟨sound.named, sound.distinct⟩⟩

/-- The error of the first label that has no name or the name of an earlier one. -/
inductive FirstLabelError : List (Nat × String) → LabelError → Prop
  | empty {before after : List (Nat × String)} {line : Nat} (sound : SoundLabels before) :
      FirstLabelError (before ++ (line, "") :: after) (.empty line)
  | duplicate {before after : List (Nat × String)} {line : Nat} {name : String}
      (sound : SoundLabels before) (again : name ∈ before.map Prod.snd) :
      FirstLabelError (before ++ (line, name) :: after) (.duplicate line name)

/-- A label points past the statements of the sections before the one that defines it. -/
def Points (pieces : List Section) (label : String) (position : Nat) : Prop :=
  ∃ before piece after, pieces = before ++ piece :: after ∧ label ∈ piece.labels ∧
    position = (statements before).length

/-! ## Definitions -/

/-- What a definition defines, and where it stands. -/
def Definition.entry (definition : Definition) : Nat × String :=
  (definition.line, definition.label)

private theorem length_statements_cons (piece : Section) (others : List Section) :
    (statements (piece :: others)).length =
      (if piece.statement.isSome then 1 else 0) + (statements others).length := by
  cases found : piece.statement <;> simp [statements, found, Nat.add_comm]

private theorem map_definitionsFrom (position : Nat) (pieces : List Section) :
    (definitionsFrom position pieces).map Definition.entry = labelled pieces := by
  induction pieces generalizing position with
  | nil => rfl
  | cons piece others ih =>
    rw [definitionsFrom, List.map_append, ih, List.map_map]
    rfl

theorem map_definitions (pieces : List Section) :
    (definitions pieces).map Definition.entry = labelled pieces := map_definitionsFrom 0 pieces

private theorem mem_definitionsFrom_iff {pieces : List Section} {start : Nat}
    {definition : Definition} :
    definition ∈ definitionsFrom start pieces ↔
      ∃ before piece after, pieces = before ++ piece :: after ∧ definition.line = piece.line ∧
        definition.label ∈ piece.labels ∧
        definition.position = start + (statements before).length := by
  induction pieces generalizing start with
  | nil => simp [definitionsFrom]
  | cons piece others ih =>
    rw [definitionsFrom, List.mem_append, ih]
    constructor
    · rintro (here | ⟨before, later, after, rfl, line, label, position⟩)
      · obtain ⟨label, defined, rfl⟩ := List.mem_map.mp here
        exact ⟨[], piece, others, rfl, rfl, defined, rfl⟩
      · refine ⟨piece :: before, later, after, rfl, line, label, ?_⟩
        rw [length_statements_cons, position]
        split <;> omega
    · rintro ⟨before, later, after, same, line, label, position⟩
      cases before with
      | nil =>
        cases same
        refine .inl (List.mem_map.mpr ⟨definition.label, label, ?_⟩)
        rw [← line, ← show definition.position = start from position]
      | cons first before =>
        cases same
        refine .inr ⟨before, later, after, rfl, line, label, ?_⟩
        rw [position, length_statements_cons]
        split <;> omega

/-- The definitions of a listing are the places that its labels point to. -/
theorem points_iff {pieces : List Section} {label : String} {position : Nat} :
    Points pieces label position ↔
      ∃ definition ∈ definitions pieces,
        definition.label = label ∧ definition.position = position := by
  constructor
  · rintro ⟨before, piece, after, split, defined, rfl⟩
    refine ⟨⟨piece.line, label, (statements before).length⟩, ?_, rfl, rfl⟩
    exact mem_definitionsFrom_iff.mpr
      ⟨before, piece, after, split, rfl, defined, (Nat.zero_add _).symm⟩
  · rintro ⟨definition, member, rfl, rfl⟩
    obtain ⟨before, piece, after, split, -, defined, position⟩ :=
      mem_definitionsFrom_iff.mp member
    exact ⟨before, piece, after, split, defined, position.trans (Nat.zero_add _)⟩

/-! ## Wrong labels -/

theorem firstLabelError_iff {labels : List (Nat × String)} {error : LabelError} :
    FirstLabelError labels error ↔
      ∃ before line name after, labels = before ++ (line, name) :: after ∧ SoundLabels before ∧
        (name = "" ∧ error = .empty line ∨
          name ∈ before.map Prod.snd ∧ error = .duplicate line name) := by
  constructor
  · rintro (sound | ⟨sound, again⟩)
    · exact ⟨_, _, _, _, rfl, sound, .inl ⟨rfl, rfl⟩⟩
    · exact ⟨_, _, _, _, rfl, sound, .inr ⟨again, rfl⟩⟩
  · rintro ⟨before, line, name, after, rfl, sound, ⟨rfl, rfl⟩ | ⟨again, rfl⟩⟩
    · exact .empty sound
    · exact .duplicate sound again

/-- Labels that are not sound have a first one that is wrong. -/
theorem sound_or_firstLabelError {before : List (Nat × String)} (sound : SoundLabels before)
    (labels : List (Nat × String)) :
    SoundLabels (before ++ labels) ∨ ∃ error, FirstLabelError (before ++ labels) error := by
  induction labels generalizing before with
  | nil =>
    rw [List.append_nil]
    exact .inl sound
  | cons label others ih =>
    obtain ⟨line, name⟩ := label
    by_cases empty : name = ""
    · subst empty
      exact .inr ⟨_, .empty sound⟩
    by_cases again : name ∈ before.map Prod.snd
    · exact .inr ⟨_, .duplicate sound again⟩
    have extended : SoundLabels (before ++ [(line, name)]) := by
      constructor
      · rw [List.forall_mem_append, List.forall_mem_singleton]
        exact ⟨sound.named, empty⟩
      · rw [List.map_append, List.map_singleton, ← List.concat_eq_append]
        exact sound.distinct.concat again
    have later := ih extended
    rwa [List.append_assoc, List.singleton_append] at later

/-- Labels that are sound, also beside those already seen, are passed over. -/
theorem labelErrorFrom?_append {seen : List String} {before : List Definition}
    (sound : SoundLabels (before.map Definition.entry))
    (fresh : ∀ definition ∈ before, definition.label ∉ seen) (rest : List Definition) :
    labelErrorFrom? seen (before ++ rest) =
      labelErrorFrom? ((before.map Definition.label).reverse ++ seen) rest := by
  obtain ⟨named, distinct⟩ := sound
  induction before generalizing seen with
  | nil => rfl
  | cons definition others ih =>
    rw [List.map_cons, List.forall_mem_cons] at named
    rw [List.map_cons, List.map_cons, List.nodup_cons] at distinct
    rw [List.forall_mem_cons] at fresh
    have later : ∀ other ∈ others, other.label ∉ definition.label :: seen := by
      intro other member
      rw [List.mem_cons, not_or]
      refine ⟨fun same => distinct.1 ?_, fresh.2 other member⟩
      rw [List.map_map]
      exact List.mem_map.mpr ⟨other, member, same⟩
    have nonempty : definition.label ≠ "" := named.1
    rw [List.cons_append, labelErrorFrom?, if_neg nonempty, if_neg fresh.1,
      ih later named.2 distinct.2, List.map_cons, List.reverse_cons, List.append_assoc]
    rfl

private theorem labelError?_of_sound {found : List Definition}
    (sound : SoundLabels (found.map Definition.entry)) : labelError? found = none := by
  have passed : labelErrorFrom? [] (found ++ []) = none :=
    labelErrorFrom?_append sound (fun _ _ => List.not_mem_nil) []
  rwa [List.append_nil] at passed

private theorem labelError?_of_firstLabelError {found : List Definition}
    {labels : List (Nat × String)} (same : found.map Definition.entry = labels) {error : LabelError}
    (first : FirstLabelError labels error) : labelError? found = some error := by
  cases first with
  | @empty before after line sound =>
    obtain ⟨earlier, rest, rfl, rfl, split⟩ := List.map_eq_append_iff.mp same
    obtain ⟨definition, later, rfl, entry, rfl⟩ := List.map_eq_cons_iff.mp split
    obtain ⟨rfl, label⟩ := Prod.mk.inj entry
    rw [labelError?, labelErrorFrom?_append sound fun _ _ => List.not_mem_nil, labelErrorFrom?,
      if_pos label]
  | @duplicate before after line name sound again =>
    obtain ⟨earlier, rest, rfl, rfl, split⟩ := List.map_eq_append_iff.mp same
    obtain ⟨definition, later, rfl, entry, rfl⟩ := List.map_eq_cons_iff.mp split
    obtain ⟨rfl, rfl⟩ := Prod.mk.inj entry
    rw [List.map_map] at again
    obtain ⟨other, member, repeated⟩ := List.mem_map.mp again
    have named : definition.label ≠ "" :=
      repeated ▸ sound.named other.entry (List.mem_map_of_mem member)
    have seen : definition.label ∈ (earlier.map Definition.label).reverse ++ [] := by
      rw [List.append_nil, List.mem_reverse]
      exact List.mem_map.mpr ⟨other, member, repeated⟩
    rw [labelError?, labelErrorFrom?_append sound fun _ _ => List.not_mem_nil, labelErrorFrom?,
      if_neg named, if_pos seen]

section Sections

variable {pieces : List Section}

theorem sound_labelled_or (pieces : List Section) :
    SoundLabels (labelled pieces) ∨ ∃ error, FirstLabelError (labelled pieces) error :=
  sound_or_firstLabelError ⟨List.forall_mem_nil _, List.nodup_nil⟩ (labelled pieces)

/-- There is no error exactly where the labels are sound. -/
theorem labelError?_eq_none_iff :
    labelError? (definitions pieces) = none ↔ SoundLabels (labelled pieces) := by
  constructor
  · intro none
    refine (sound_labelled_or pieces).resolve_right ?_
    rintro ⟨error, first⟩
    rw [labelError?_of_firstLabelError (map_definitions pieces) first] at none
    contradiction
  · intro sound
    exact labelError?_of_sound (map_definitions pieces ▸ sound)

/-- The error that is reported is that of the first wrong label. -/
theorem labelError?_eq_some_iff {error : LabelError} :
    labelError? (definitions pieces) = some error ↔
      FirstLabelError (labelled pieces) error := by
  constructor
  · intro found
    rcases sound_labelled_or pieces with sound | ⟨other, first⟩
    · rw [labelError?_eq_none_iff.mpr sound] at found
      contradiction
    · rw [labelError?_of_firstLabelError (map_definitions pieces) first] at found
      exact Option.some.inj found ▸ first
  · exact labelError?_of_firstLabelError (map_definitions pieces)

/-! ## Resolution -/

/-- Sound labels are resolved to the places that they point to, and nothing else is. -/
theorem position?_eq_some_iff (sound : SoundLabels (labelled pieces)) {label : String}
    {position : Nat} :
    position? (definitions pieces) label = some position ↔ Points pieces label position := by
  rw [position?, Option.map_eq_some_iff, points_iff]
  constructor
  · rintro ⟨definition, found, rfl⟩
    exact ⟨definition, List.mem_of_find?_eq_some found, by simpa using List.find?_some found, rfl⟩
  · rintro ⟨definition, member, rfl, rfl⟩
    have distinct : ((definitions pieces).map Definition.label).Nodup := by
      have entries := sound.distinct
      rwa [← map_definitions, List.map_map] at entries
    cases found : (definitions pieces).find? fun other => other.label == definition.label with
    | none =>
      have absent := List.find?_eq_none.mp found definition member
      simp at absent
    | some other =>
      have label : other.label = definition.label := by simpa using List.find?_some found
      have same := List.inj_on_of_nodup_map distinct (List.mem_of_find?_eq_some found) member label
      exact ⟨other, rfl, congrArg Definition.position same⟩

end Sections

end RegisterMachine.Listing
