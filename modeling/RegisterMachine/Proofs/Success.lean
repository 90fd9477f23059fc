import Mathlib.Data.List.Forall2

/-! # Successful computations

A computation that may fail succeeds exactly when each of its parts does, and otherwise fails with
the error of the first part that does not.
-/

namespace RegisterMachine

variable {ε ζ α β : Type}

theorem bind_eq_ok_iff {first : Except ε α} {next : α → Except ε β} {result : β} :
    first >>= next = .ok result ↔ ∃ value, first = .ok value ∧ next value = .ok result := by
  cases first with
  | error error => simp [bind, Except.bind]
  | ok value => simp [bind, Except.bind]

theorem bind_eq_error_iff {first : Except ε α} {next : α → Except ε β} {error : ε} :
    first >>= next = .error error ↔
      first = .error error ∨ ∃ value, first = .ok value ∧ next value = .error error := by
  cases first with
  | error other => simp [bind, Except.bind]
  | ok value => simp [bind, Except.bind]

theorem map_eq_ok_iff {first : Except ε α} {change : α → β} {result : β} :
    first.map change = .ok result ↔ ∃ value, first = .ok value ∧ change value = result := by
  cases first with
  | error error => simp [Except.map]
  | ok value => simp [Except.map]

theorem map_eq_error_iff {first : Except ε α} {change : α → β} {error : ε} :
    first.map change = .error error ↔ first = .error error := by
  cases first with
  | error error => simp [Except.map]
  | ok value => simp [Except.map]

theorem mapError_eq_ok_iff {first : Except ε α} {change : ε → ζ} {result : α} :
    first.mapError change = .ok result ↔ first = .ok result := by
  cases first with
  | error error => simp [Except.mapError]
  | ok value => simp [Except.mapError]

theorem mapError_eq_error_iff {first : Except ε α} {change : ε → ζ} {error : ζ} :
    first.mapError change = .error error ↔
      ∃ cause, first = .error cause ∧ change cause = error := by
  cases first with
  | error cause => simp [Except.mapError]
  | ok value => simp [Except.mapError]

/-- A change of errors does not matter to a change of results. -/
theorem mapError_map {first : Except ε α} (change : α → β) (translate : ε → ζ) :
    (first.map change).mapError translate = (first.mapError translate).map change := by
  cases first <;> rfl

theorem mapM_eq_ok_iff {step : α → Except ε β} {values : List α} {results : List β} :
    values.mapM step = .ok results ↔
      List.Forall₂ (fun value result => step value = .ok result) values results := by
  induction values generalizing results with
  | nil =>
    rw [List.mapM_nil, List.forall₂_nil_left_iff]
    exact ⟨fun same => (Except.ok.inj same).symm, fun same => congrArg Except.ok same.symm⟩
  | cons value others ih =>
    rw [List.mapM_cons, bind_eq_ok_iff, List.forall₂_cons_left_iff]
    simp only [bind_eq_ok_iff, ih]
    constructor
    · rintro ⟨first, head, rest, tail, ⟨⟩⟩
      exact ⟨first, rest, head, tail, rfl⟩
    · rintro ⟨first, rest, head, tail, rfl⟩
      exact ⟨first, head, rest, tail, rfl⟩

theorem exists_of_forall₂ {relation : α → β → Prop} {left : List α} {right : List β}
    (related : List.Forall₂ relation left right) {value : α} (member : value ∈ left) :
    ∃ other, relation value other := by
  induction related with
  | nil => contradiction
  | cons first _ ih =>
    rcases List.mem_cons.mp member with rfl | later
    · exact ⟨_, first⟩
    · exact ih later

/-- A change of errors may be made in each computation or in the outcome of all. -/
theorem mapM_mapError (step : α → Except ε β) (change : ε → ζ) (values : List α) :
    values.mapM (fun value => (step value).mapError change) =
      (values.mapM step).mapError change := by
  induction values with
  | nil => rfl
  | cons value others ih =>
    rw [List.mapM_cons, List.mapM_cons, ih]
    cases step value with
    | error error => rfl
    | ok result => cases others.mapM step <;> rfl

/-- A list of computations fails with the error of the first that fails. -/
theorem mapM_eq_error_iff {step : α → Except ε β} {values : List α} {error : ε} :
    values.mapM step = .error error ↔
      ∃ before value after, values = before ++ value :: after ∧
        (∀ earlier ∈ before, ∃ result, step earlier = .ok result) ∧ step value = .error error := by
  induction values with
  | nil =>
    rw [List.mapM_nil]
    constructor
    · intro failed
      contradiction
    · rintro ⟨before, value, after, none, -⟩
      simp at none
  | cons value others ih =>
    rw [List.mapM_cons, bind_eq_error_iff]
    constructor
    · rintro (failed | ⟨result, succeeds, later⟩)
      · exact ⟨[], value, others, rfl, List.forall_mem_nil _, failed⟩
      · rcases bind_eq_error_iff.mp later with later | ⟨results, -, done⟩
        · obtain ⟨before, next, after, rfl, earlier, failed⟩ := ih.mp later
          exact ⟨value :: before, next, after, rfl,
            List.forall_mem_cons.mpr ⟨⟨result, succeeds⟩, earlier⟩, failed⟩
        · contradiction
    · rintro ⟨before, next, after, same, earlier, failed⟩
      cases before with
      | nil =>
        cases same
        exact .inl failed
      | cons first before =>
        cases same
        rw [List.forall_mem_cons] at earlier
        obtain ⟨⟨result, succeeds⟩, earlier⟩ := earlier
        have later := ih.mpr ⟨before, next, after, rfl, earlier, failed⟩
        exact .inr ⟨result, succeeds, bind_eq_error_iff.mpr (.inl later)⟩

end RegisterMachine
