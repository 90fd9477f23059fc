import RegisterMachine.Proofs.Files.Run
import RegisterMachine.Proofs.Files.Working
import RegisterMachine.Proofs.Success

/-! # Operations in place

The operations of the tree are given here once more as steps that change it in place, one after the
other. A step that fails leaves behind whatever the steps before it have done; no operation has done
anything by then, and so each comes to the same as a change that is made at once or not at all.
-/

namespace RegisterMachine

/-- A computation whose steps change a state. What they have done stays done when a later one
fails. -/
abbrev InPlace (σ ε : Type) := ExceptT ε (StateM σ)

namespace InPlace

variable {σ ε α β : Type}

/-- The outcome of a change beside the state after it, which is the one before where it fails. -/
def keeping (state : σ) : Except ε (σ × α) → Except ε α × σ
  | .ok (changed, value) => (.ok value, changed)
  | .error error => (.error error, state)

/-- A change that is made at once or, where it fails, not at all. -/
def atOnce (change : σ → Except ε (σ × α)) : InPlace σ ε α := fun state =>
  keeping state (change state)

/-- A failed step keeps the state that it has led to. -/
theorem bind_apply (first : InPlace σ ε α) (next : α → InPlace σ ε β) (state : σ) :
    (first >>= next) state =
      match first state with
      | (.ok value, changed) => next value changed
      | (.error error, changed) => (.error error, changed) := by
  show ExceptT.bindCont next (first state).1 (first state).2 = _
  rcases first state with ⟨_ | _, changed⟩ <;> rfl

theorem get_apply (state : σ) : (get : InPlace σ ε σ) state = (.ok state, state) := rfl

theorem lift_apply (outcome : Except ε α) (state : σ) :
    (liftM outcome : InPlace σ ε α) state = (outcome, state) := rfl

end InPlace

/-! ## File operations -/

namespace Files

def look : InPlace Files Error Entries := do
  (← get).here

private theorem look_apply (files : Files) : look files = (files.here, files) := rfl

/-- Carries out an operation on a tree that is changed in place. -/
def stepwise : Operation → InPlace Files Error Answer
  | .makeDirectory name => do
    checkName name
    let entries ← look
    if (entries.lookup name).isSome then throw (.alreadyExists name)
    modify fun files => files.replaceHere (put name (.directory []) entries)
    return .done
  | .changeDirectory name => do
    if name = ".." then
      modify fun files => { files with path := files.path.dropLast }
      return .done
    if name = "." then return .done
    checkName name
    match (← look).lookup name with
    | some (.directory _) =>
      modify fun files => { files with path := files.path ++ [name] }
      return .done
    | some (.file _) => throw (.notADirectory name)
    | none => throw (.notFound name)
  | .list => do
    return .items ((← look).map fun entry => ⟨entry.1, entry.2.kind⟩)
  | .write name content => do
    checkName name
    let entries ← look
    modify fun files => files.replaceHere (put name (.file content) entries)
    return .done
  | .read name => do
    match (← look).lookup name with
    | some (.file content) => return .content content
    | some (.directory _) => throw (.isADirectory name)
    | none => throw (.notFound name)
  | .remove name => do
    let entries ← look
    if (entries.lookup name).isNone then throw (.notFound name)
    modify fun files => files.replaceHere (drop name entries)
    return .done

/-- No directory is changed at a path that leads to none. -/
theorem changeAt_of_error {path : List String} {entries : Entries} {error : Error}
    (lost : entriesAt path entries = .error error) (change : Entries → Except Error Entries) :
    changeAt change path entries = .error error := by
  induction path generalizing entries with
  | nil => contradiction
  | cons segment others ih =>
    rw [entriesAt] at lost
    split at lost
    · next inner present =>
      rw [changeAt, present]
      exact congrArg (Except.map _) (ih lost)
    · next content present =>
      cases lost
      rw [changeAt, present]
    · next absent =>
      cases lost
      rw [changeAt, absent]

private theorem changeHere_of_error {files : Files} {error : Error}
    (lost : files.here = .error error) (change : Entries → Except Error Entries) :
    files.changeHere change = .error error := by
  rw [changeHere, changeAt_of_error lost]
  rfl

/-- An operation looks at everything that it can fail on before it changes anything. -/
theorem stepwise_eq (operation : Operation) :
    stepwise operation = .atOnce fun files => files.perform operation := by
  funext files
  rw [InPlace.atOnce]
  cases operation with
  | makeDirectory name =>
    rw [stepwise, perform, makeDirectory]
    cases checkName name with
    | error error => rfl
    | ok valid =>
      simp only [InPlace.bind_apply, InPlace.lift_apply, look_apply]
      cases found : files.here with
      | error error =>
        rw [changeHere_of_error found]
        rfl
      | ok entries =>
        rw [changeHere_eq found]
        dsimp only
        cases entries.lookup name <;> rfl
  | changeDirectory name =>
    rw [stepwise, perform, changeDirectory]
    split
    · rfl
    split
    · rfl
    cases checkName name with
    | error error => rfl
    | ok valid =>
      simp only [InPlace.bind_apply, InPlace.lift_apply, look_apply]
      cases files.here with
      | error error => rfl
      | ok entries =>
        simp only [bind, Except.bind]
        rcases entries.lookup name with _ | ⟨_ | _⟩ <;> rfl
  | list =>
    rw [stepwise, perform, list, InPlace.bind_apply, look_apply]
    cases files.here <;> rfl
  | write name content =>
    rw [stepwise, perform, write]
    cases checkName name with
    | error error => rfl
    | ok valid =>
      simp only [InPlace.bind_apply, InPlace.lift_apply, look_apply]
      cases found : files.here with
      | error error =>
        rw [changeHere_of_error found]
        rfl
      | ok entries =>
        rw [changeHere_eq found]
        rfl
  | read name =>
    rw [stepwise, perform, read, InPlace.bind_apply, look_apply]
    cases files.here with
    | error error => rfl
    | ok entries =>
      simp only [bind, Except.bind]
      rcases entries.lookup name with _ | ⟨_ | _⟩ <;> rfl
  | remove name =>
    rw [stepwise, perform, remove, InPlace.bind_apply, look_apply]
    cases found : files.here with
    | error error =>
      rw [changeHere_of_error found]
      rfl
    | ok entries =>
      rw [changeHere_eq found]
      dsimp only
      cases entries.lookup name <;> rfl

/-- Step by step, an operation comes to the answer and the tree of the whole. -/
theorem stepwise_apply (files : Files) (operation : Operation) :
    stepwise operation files =
      ((files.perform operation).map Prod.snd, files.after operation) := by
  rw [stepwise_eq, InPlace.atOnce, after]
  cases files.perform operation <;> rfl

/-- An operation that fails leaves the tree as it was, whatever steps it has taken. -/
theorem stepwise_of_error (files : Files) {operation : Operation} {error : Error}
    (failure : (stepwise operation files).1 = .error error) :
    (stepwise operation files).2 = files := by
  rw [stepwise_apply] at failure ⊢
  rw [after, map_eq_error_iff.mp failure]

end Files

end RegisterMachine
