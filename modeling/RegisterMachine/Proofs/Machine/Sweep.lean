import RegisterMachine.Proofs.Machine.ProcessTable
import RegisterMachine.Proofs.Machine.Visit

/-! # Sweeps with and without some processes

Some processes are left out of a list and the others renumbered, as if those left out had never been
spawned. Where the programs of those left out change neither memory nor files, a sweep of the whole
list leaves the same surroundings as a sweep of the others, and the same records of the others.
-/

namespace RegisterMachine

/-- The number that a process has where the hidden ones were never spawned. -/
def rank (hidden : Nat → Bool) : Nat → Nat
  | 0 => 0
  | pid + 1 => if hidden (pid + 1) then rank hidden pid else rank hidden pid + 1

/-- The record of a process that is not hidden, under its number among those. -/
def Process.shown? (hidden : Nat → Bool) (process : Process) : Option Process :=
  if hidden process.pid then none else some (process.withPid (rank hidden process.pid))

/-- The records of the processes that are not hidden. -/
def shown (hidden : Nat → Bool) (processes : List Process) : List Process :=
  processes.filterMap (Process.shown? hidden)

variable {hidden : Nat → Bool} {process : Process} {others : List Process}

/-! ## Ranks -/

private theorem rank_mono {pid later : Nat} (earlier : pid ≤ later) :
    rank hidden pid ≤ rank hidden later := by
  induction earlier with
  | refl => exact Nat.le_refl _
  | step _ ih =>
    rw [rank]
    split <;> omega

private theorem rank_lt {pid later : Nat} (earlier : pid < later) (seen : hidden later = false) :
    rank hidden pid < rank hidden later := by
  cases later with
  | zero => omega
  | succ later =>
    have below : rank hidden pid ≤ rank hidden later := rank_mono (by omega)
    rw [rank, seen]
    simpa using Nat.lt_succ_of_le below

/-- Processes that are not hidden keep different numbers. -/
theorem rank_inj {pid other : Nat} (seen : hidden pid = false) (seen' : hidden other = false) :
    rank hidden pid = rank hidden other ↔ pid = other := by
  constructor
  · intro same
    rcases Nat.lt_trichotomy pid other with earlier | equal | later
    · have := rank_lt earlier seen'
      omega
    · exact equal
    · have := rank_lt later seen
      omega
  · rintro rfl
    rfl

private theorem rank_none (pid : Nat) : rank (fun _ => false) pid = pid := by
  induction pid with
  | zero => rfl
  | succ pid ih => simp [rank, ih]

/-! ## Records -/

private theorem shown_cons_of_hidden (unseen : hidden process.pid = true) :
    shown hidden (process :: others) = shown hidden others := by
  simp [shown, Process.shown?, unseen]

private theorem shown_cons_of_seen (seen : hidden process.pid = false) :
    shown hidden (process :: others) =
      process.withPid (rank hidden process.pid) :: shown hidden others := by
  simp [shown, Process.shown?, seen]

private theorem shown_all (processes : List Process) : shown (fun _ => true) processes = [] := by
  simp [shown, Process.shown?]

private theorem shown_none (processes : List Process) :
    shown (fun _ => false) processes = processes := by
  induction processes with
  | nil => rfl
  | cons process others ih => rw [shown_cons_of_seen rfl, ih, rank_none, Process.withPid]

/-! ## Sweeps -/

private theorem Process.pid_visit (handlers : Handlers) (tick : Nat) (core : Core)
    (process : Process) :
    (process.visit handlers tick core).2.1.pid = process.pid :=
  (process.visit_visited handlers tick core).continues.pid_eq

namespace Core

variable {left right core : Core} {processes : List Process}

/-- Hidden processes whose programs change neither memory nor files make no difference to a
sweep. -/
theorem sweep_shown (hidden : Nat → Bool) (shares : left.Shares right)
    (readOnly : ∀ process ∈ processes, hidden process.pid → ReadOnly process.program)
    (tick : Nat) :
    (left.sweep [] tick processes).1.Shares (right.sweep [] tick (shown hidden processes)).1 ∧
      (right.sweep [] tick (shown hidden processes)).2.1 =
        shown hidden (left.sweep [] tick processes).2.1 := by
  induction processes generalizing left right with
  | nil => exact ⟨shares, rfl⟩
  | cons process others ih =>
    have pid := process.pid_visit [] tick left
    have rest : ∀ process ∈ others, hidden process.pid → ReadOnly process.program :=
      fun process member => readOnly process (List.mem_cons_of_mem _ member)
    rw [sweep]
    dsimp only
    cases seen : hidden process.pid with
    | true =>
      have visited := Process.shares_visit (readOnly process List.mem_cons_self seen) tick left
      rw [shown_cons_of_hidden seen, shown_cons_of_hidden (pid ▸ seen)]
      exact ih (visited.symm.trans shares) rest
    | false =>
      obtain ⟨visited, record, -⟩ :=
        Process.visit_withPid shares tick (rank hidden process.pid) process
      obtain ⟨swept, records⟩ := ih visited rest
      rw [shown_cons_of_seen seen, shown_cons_of_seen (pid ▸ seen), sweep, pid]
      exact ⟨swept, congrArg₂ List.cons record records⟩

/-- Sweeps on cores that share their surroundings leave the same records. -/
theorem sweep_congr (shares : left.Shares right) (tick : Nat) (processes : List Process) :
    (left.sweep [] tick processes).1.Shares (right.sweep [] tick processes).1 ∧
      (right.sweep [] tick processes).2.1 = (left.sweep [] tick processes).2.1 := by
  have swept := sweep_shown (fun _ => false) shares
    (fun process (_ : process ∈ processes) unseen => by contradiction) tick
  simpa only [shown_none] using swept

/-- Programs that change neither memory nor files leave both as they are. -/
theorem shares_sweep (core : Core)
    (readOnly : ∀ process ∈ processes, ReadOnly process.program) (tick : Nat) :
    core.Shares (core.sweep [] tick processes).1 := by
  have swept := sweep_shown (fun _ => true) (.refl core)
    (fun process member _ => readOnly process member) tick
  rw [shown_all] at swept
  exact swept.1.symm

theorem config_sweep (tick : Nat) (core : Core) (processes : List Process) :
    (core.sweep [] tick processes).1.config = core.config := by
  induction processes generalizing core with
  | nil => rfl
  | cons process others ih =>
    rw [sweep]
    dsimp only
    rw [ih, Process.config_visit]

end Core

end RegisterMachine
