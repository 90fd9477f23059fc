import Mathlib.Data.List.DropRight
import RegisterMachine.Log

/-! # The newest records

Records are put into the log one by one and handed over all at once. A full log gives up its oldest
record for each new one, so it always holds the end of what was put in since it was last drained,
and all of that as long as there is room.
-/

namespace RegisterMachine.Log

inductive Action where
  | push (level : Level) (message : String)
  | drain
  deriving DecidableEq, Repr

def Action.record? : Action → Option Record
  | push level message => some ⟨level, message⟩
  | drain => none

def after (log : Log) : Action → Log
  | .push level message => log.push level message
  | .drain => log.drain.2

def run (log : Log) (actions : List Action) : Log := actions.foldl after log

/-- The records that a history puts in behind its last drain, oldest first. -/
def sinceDrain (history : List Action) : List Record :=
  (history.rtakeWhile (· ≠ .drain)).filterMap Action.record?

private theorem sinceDrain_push (history : List Action) (level : Level) (message : String) :
    sinceDrain (history ++ [.push level message]) = sinceDrain history ++ [⟨level, message⟩] := by
  rw [sinceDrain, List.rtakeWhile_concat, if_pos (decide_eq_true nofun), List.filterMap_append]
  rfl

private theorem sinceDrain_drain (history : List Action) :
    sinceDrain (history ++ [.drain]) = [] := by
  rw [sinceDrain, List.rtakeWhile_concat, if_neg (by decide), List.filterMap_nil]

/-! ## The end of a list -/

section Ends

variable {α : Type} (values : List α) (length : Nat)

private theorem length_rtake : (values.rtake length).length = min length values.length := by
  rw [List.rtake, List.length_drop]
  omega

private theorem rtake_min : values.rtake (min length values.length) = values.rtake length := by
  rw [List.rtake, List.rtake]
  congr 1
  omega

/-- With one more value in a list, the last values of the list are those from before and the new
one, without the first of them if there were enough already. -/
theorem rtake_concat (value : α) (positive : 0 < length) :
    (values ++ [value]).rtake length =
      (if (values.rtake length).length = length then (values.rtake length).drop 1
        else values.rtake length) ++ [value] := by
  obtain ⟨shorter, rfl⟩ := Nat.exists_eq_add_one_of_ne_zero (Nat.ne_of_gt positive)
  rw [List.rtake_concat_succ, length_rtake]
  split
  · next full =>
    rw [List.rtake, List.rtake, List.drop_drop]
    congr 2
    omega
  · next room =>
    rw [List.rtake, List.rtake]
    congr 2
    omega

end Ends

/-! ## What the log holds -/

/-- A log that holds the end of some records holds the end of them with one more. -/
theorem records_push {log : Log} {records : List Record}
    (holds : log.records = records.rtake capacity) (level : Level) (message : String) :
    (log.push level message).records =
      List.rtake (records ++ [⟨level, message⟩]) capacity := by
  rw [rtake_concat _ _ _ (by decide), ← holds]
  rfl

private theorem records_run (history : List Action) :
    (run {} history).records = (sinceDrain history).rtake capacity := by
  induction history using List.reverseRecOn with
  | nil => rfl
  | append_singleton history action holds =>
    rw [run, List.foldl_concat]
    cases action with
    | push level message =>
      rw [sinceDrain_push]
      exact records_push holds level message
    | drain =>
      rw [sinceDrain_drain]
      rfl

/-- After any history the log holds the last 64 of the records that were put in since the last
drain, or all of them if there are fewer. A drain hands these over and leaves none. -/
theorem newest_since_drain (history : List Action) :
    let log := run {} history
    let added := sinceDrain history
    let kept := added.rtake (min 64 added.length)
    log.records = kept ∧ log.drain = (kept, {}) ∧
      log.records.length = min 64 added.length ∧ log.records.length ≤ 64 := by
  intro log added kept
  have records : log.records = kept := (records_run history).trans (rtake_min added 64).symm
  have length : log.records.length = min 64 added.length := by
    rw [records_run, length_rtake]
    rfl
  exact ⟨records, by rw [drain, records], length, length ▸ Nat.min_le_left _ _⟩

end RegisterMachine.Log
