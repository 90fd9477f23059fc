import Mathlib.Data.List.Basic
import RegisterMachine.Proofs.Machine.Turns

/-! # Programs that only go forward

A program without conditional jumps goes forward where its other jumps point beyond themselves and
its skips pass over something. Each of its turns halts or moves the pointer up, whether it takes
effect or fails, so that no instruction is carried out twice and the run is over, with or without a
limit, after at most as many turns as the program is long.
-/

namespace RegisterMachine

/-- Whether an instruction at a place can only lead to places beyond it. -/
def Instruction.goesForward (place : Nat) : Instruction → Bool
  | .jumpIf .. => false
  | .setIp address | .jump address => place < address
  | .skip distance => 0 < distance
  | _ => true

/-- A program in which every instruction can only lead to places beyond its own. -/
def Forward (program : List Instruction) : Prop :=
  ∀ place, (inside : place < program.length) → program[place].goesForward place

instance : DecidablePred Forward := fun program =>
  inferInstanceAs (Decidable (∀ place, (inside : place < program.length) →
    program[place].goesForward place))

namespace Core

variable {core last : Core} {instruction : Instruction} {program : List Instruction}
  {turns : List Turn}

/-! ## Turns -/

/-- An instruction that goes forward halts or moves the pointer up, also where it fails. -/
theorem climbs_dispatch (forward : instruction.goesForward core.cpu.ip)
    (room : core.cpu.ip < lastIp) :
    (core.dispatch [] instruction).1.cpu.halted = true ∨
      core.cpu.ip < (core.dispatch [] instruction).1.cpu.ip := by
  cases turns : instruction.redirects with
  | false =>
    rcases core.passes_dispatch turns with stopped | passed
    · exact .inl stopped
    · exact .inr (by omega)
  | true =>
    cases instruction with
    | setIp address => exact .inr (of_decide_eq_true forward)
    | jump address => exact .inr (of_decide_eq_true forward)
    | skip distance =>
      have some : 0 < distance := of_decide_eq_true forward
      have beyond : core.cpu.ip < min (core.cpu.ip + distance) lastIp := by omega
      exact .inr beyond
    | _ => contradiction

/-- A program of which every place is a word, and in which every instruction goes forward. -/
structure Climbs (program : List Instruction) : Prop where
  short : program.length < UInt64.size
  forward : Forward program

private theorem Climbs.after (climbs : Climbs program)
    (fetched : program[core.cpu.ip]? = some instruction) :
    (Turn.after [] ⟨core, instruction⟩).cpu.halted = true ∨
      core.cpu.ip < (Turn.after [] ⟨core, instruction⟩).cpu.ip := by
  obtain ⟨inside, rfl⟩ := List.getElem?_eq_some_iff.mp fetched
  have room : core.cpu.ip < lastIp := by
    have short := climbs.short
    unfold lastIp
    omega
  rw [Turn.cpu_after]
  exact climbs_dispatch (climbs.forward _ inside) room

/-! ## Courses -/

/-- Every turn of a course that leads to a running core has moved the pointer up. -/
theorem Course.ip_le (climbs : Climbs program) (course : core.Course [] program turns last)
    (running : last.cpu.halted = false) : core.cpu.ip + turns.length ≤ last.cpu.ip := by
  induction course with
  | nil => exact Nat.le_refl _
  | cons _ fetched rest ih =>
    rcases climbs.after fetched with stopped | up
    · obtain ⟨-, rfl⟩ := rest.of_halted stopped
      rw [running] at stopped
      contradiction
    · have further := ih running
      rw [List.length_cons]
      omega

/-- The places of the turns increase. -/
theorem Course.increasing (climbs : Climbs program) (course : core.Course [] program turns last) :
    (turns.map fun turn => turn.core.cpu.ip).Pairwise (· < ·) := by
  induction course with
  | nil => exact .nil
  | @cons core last instruction turns running fetched rest ih =>
    rw [List.map_cons, List.pairwise_cons]
    refine ⟨?_, ih⟩
    intro place member
    obtain ⟨turn, taken, rfl⟩ := List.mem_map.mp member
    obtain ⟨earlier, later, rfl⟩ := List.append_of_mem taken
    rcases climbs.after fetched with stopped | up
    · have none := (rest.of_halted stopped).1
      simp at none
    · have further := rest.before.ip_le climbs (rest.of_mem taken).1
      show core.cpu.ip < turn.core.cpu.ip
      omega

/-- There are no more turns than instructions. -/
theorem Course.length_le (climbs : Climbs program) (course : core.Course [] program turns last) :
    turns.length ≤ program.length := by
  rcases List.eq_nil_or_concat' turns with rfl | ⟨earlier, turn, rfl⟩
  · exact Nat.zero_le _
  · have member : turn ∈ earlier ++ [turn] := by simp
    obtain ⟨running, fetched⟩ := course.of_mem member
    have inside := (List.getElem?_eq_some_iff.mp fetched).1
    have before := course.before.ip_le climbs running
    rw [List.length_append, List.length_singleton]
    omega

end Core

namespace Machine

/-- A program that only goes forward does not run out of a bound that is as great as it is long. -/
theorem executeWithin_forward (machine : Machine) (unlearnt : machine.handlers = [])
    {program : List Instruction} (climbs : Core.Climbs program) {bound : Nat}
    (enough : program.length ≤ bound) :
    (machine.executeWithin bound program).2.outcome ≠ .outOfFuel := by
  obtain ⟨turns, last, ran, -, ended⟩ := machine.exists_ran bound program
  have course := unlearnt ▸ ran.course
  intro cut
  obtain ⟨running, inside, spent⟩ := ended.outOfFuel_iff.mp cut
  rw [ended.cpu_eq] at running inside
  have further := course.ip_le climbs running
  omega

/-- Without a limit and without learnt mnemonics, a program that only goes forward ends after at
most as many steps as it is long. It carries out every instruction once at most, in the order of
their places, and comes to the same with any fuel that is no less than its length. -/
theorem execute_forward (machine : Machine) (unlearnt : machine.handlers = [])
    (unlimited : machine.core.config.fuel = none) (program : List Instruction)
    (short : program.length < UInt64.size) (forward : Forward program) :
    let result := machine.execute program
    machine.Ends program result ∧ result.2.outcome ≠ .outOfFuel ∧
    result.2.steps ≤ program.length ∧
    (∃ turns last, machine.Ran program turns last result ∧
      (turns.map fun turn => turn.core.cpu.ip).Pairwise (· < ·)) ∧
    ∀ fuel : UInt64, program.length ≤ fuel.toNat →
      (machine.refuel (some fuel)).execute program =
        (result.1.refuel (some fuel), result.2) := by
  intro result
  have climbs : Core.Climbs program := ⟨short, forward⟩
  have allowed : program.length ≤ Core.allowance machine.core.config program := by
    rw [Core.allowance, unlimited]
    exact Nat.le_max_right _ _
  have finished := machine.executeWithin_forward unlearnt climbs allowed
  obtain ⟨turns, last, ran, -, -⟩ := machine.exists_ran _ program
  have course := unlearnt ▸ ran.course
  refine ⟨⟨_, rfl, finished⟩, finished, ran.steps ▸ course.length_le climbs,
    ⟨turns, last, ran, course.increasing climbs⟩, ?_⟩
  -- From the length of the program on, every bound gives the same result.
  have ends := machine.executeWithin_forward unlearnt climbs (Nat.le_refl program.length)
  have same {bound : Nat} (le : program.length ≤ bound) :
      machine.executeWithin bound program = machine.executeWithin program.length program :=
    executeWithin_of_le le ends
  intro fuel enough
  rw [execute_of_fuel rfl, executeWithin_refuel unlearnt, same enough, ← same allowed]
  rfl

/-- A program that skips an instruction and jumps far beyond its end. -/
theorem execute_forward_beyond :
    let machine := Machine.ofConfig { fuel := none }
    let program : List Instruction := [.skip 2, .halt, .print (.register .ax), .jump 9]
    let result := machine.execute program
    Forward program ∧ result.2 = ⟨.completed, 3, #[]⟩ ∧ machine.Ends program result ∧
      (∃ turns last, machine.Ran program turns last result ∧
        (turns.map fun turn => turn.core.cpu.ip).Pairwise (· < ·)) ∧
      (machine.refuel (some 4)).execute program = (result.1.refuel (some 4), result.2) := by
  intro machine program result
  have forward : Forward program := by decide
  have completed : result.2 = ⟨.completed, 3, #[]⟩ := by decide +kernel
  obtain ⟨ends, -, -, increasing, same⟩ :=
    execute_forward machine rfl rfl program (by decide) forward
  exact ⟨forward, completed, ends, increasing, same 4 (by decide)⟩

end Machine

end RegisterMachine
