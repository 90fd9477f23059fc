import RegisterMachine.Proofs.Machine.Turns

/-! # Runs that stall

An instruction that takes effect, does not halt and leaves the pointer at itself has changed nothing
at all: it is a jump that is not taken, a jump to itself or a skip of no distance. The next turn
finds the same core and the same instruction, so that a run never gets past it and spends all its
fuel. Hence a run that ends has taken every conditional jump that it came to.
-/

namespace RegisterMachine

namespace Core

/-- The instructions that take effect and leave the pointer at themselves. -/
inductive Stalls (core : Core) : Instruction → Prop
  | untaken {condition : Condition} {address : Nat}
      (fails : condition.holds core.cpu.registers.flag = false) :
      Stalls core (.jumpIf condition address)
  | jumpIf (condition : Condition) : Stalls core (.jumpIf condition core.cpu.ip)
  | jump : Stalls core (.jump core.cpu.ip)
  | setIp : Stalls core (.setIp core.cpu.ip)
  | skip : Stalls core (.skip 0)

variable {core : Core} {instruction : Instruction}

/-! ## One instruction -/

/-- An instruction that leaves the pointer and takes effect without a halt can point elsewhere, but
has done nothing. -/
theorem step_of_unmoved (silent : (core.step instruction).2 = none)
    (unmoved : (core.step instruction).1.cpu.ip = core.cpu.ip)
    (running : (core.step instruction).1.cpu.halted = false) :
    instruction.redirects = true ∧ core.step instruction = (core, none) := by
  obtain ⟨effect, suits, same⟩ := core.exists_step_eq instruction
  rw [same] at silent unmoved running ⊢
  cases suits with
  | fail fault => contradiction
  | next change =>
    simp [undergo, next, advance, setIp] at unmoved
  | redirect ip turns =>
    have there : ip = core.cpu.ip := unmoved
    rw [there]
    exact ⟨turns, rfl⟩
  | halt => contradiction

private theorem step_of_untaken {condition : Condition} {address : Nat}
    (fails : condition.holds core.cpu.registers.flag = false) :
    core.step (.jumpIf condition address) = (core, none) := by
  rw [step, fails]
  rfl

/-- The instructions that stall are those that take effect and do nothing. -/
theorem stalls_iff (running : core.cpu.halted = false) (room : core.cpu.ip < lastIp) :
    core.Stalls instruction ↔ core.step instruction = (core, none) := by
  constructor
  · intro stalls
    cases stalls with
    | untaken fails => exact step_of_untaken fails
    | jumpIf condition =>
      rw [step]
      split <;> rfl
    | jump => rfl
    | setIp => rfl
    | skip =>
      have there : min (core.cpu.ip + 0) lastIp = core.cpu.ip := by omega
      rw [step, there]
      rfl
  · intro idle
    have silent : (core.step instruction).2 = none := by rw [idle]
    have unmoved : (core.step instruction).1.cpu.ip = core.cpu.ip := by rw [idle]
    have turns := (step_of_unmoved silent unmoved (by rw [idle]; exact running)).1
    cases instruction with
    | setIp address =>
      cases (show address = core.cpu.ip from unmoved)
      exact .setIp
    | jump address =>
      cases (show address = core.cpu.ip from unmoved)
      exact .jump
    | jumpIf condition address =>
      cases taken : condition.holds core.cpu.registers.flag with
      | false => exact .untaken taken
      | true =>
        rw [step, taken] at unmoved
        cases (show address = core.cpu.ip from unmoved)
        exact .jumpIf condition
    | skip distance =>
      have there : min (core.cpu.ip + distance) lastIp = core.cpu.ip := unmoved
      obtain rfl : distance = 0 := by omega
      exact .skip
    | _ => contradiction

end Core

namespace Turn

/-- A turn that takes effect without a halt and leaves the pointer where it was. -/
structure Stays (turn : Turn) : Prop where
  silent : turn.fault [] = none
  unmoved : (turn.after []).cpu.ip = turn.core.cpu.ip
  running : (turn.after []).cpu.halted = false

variable {turn : Turn}

/-- Such a turn has done nothing. -/
theorem stays_iff :
    turn.Stays ↔ turn.core.cpu.halted = false ∧
      turn.core.step turn.instruction = (turn.core, none) := by
  constructor
  · intro stays
    obtain ⟨silent, dispatched⟩ := Core.step_of_silent stays.silent
    have cpu := turn.cpu_after []
    rw [dispatched] at cpu
    have idle := (Core.step_of_unmoved silent (cpu ▸ stays.unmoved) (cpu ▸ stays.running)).2
    rw [idle] at cpu
    exact ⟨cpu ▸ stays.running, idle⟩
  · rintro ⟨running, idle⟩
    have dispatched : turn.core.dispatch [] turn.instruction = (turn.core, none) := by
      rw [Core.dispatch_of_success (by rw [idle]), idle]
    have cpu := turn.cpu_after []
    rw [dispatched] at cpu
    exact ⟨by rw [fault, dispatched], by rw [cpu], by rw [cpu, running]⟩

private theorem Stays.after_eq (stays : turn.Stays) : turn.after [] = turn.core := by
  have dispatched := (Core.step_of_silent stays.silent).2
  rw [(stays_iff.mp stays).2] at dispatched
  rw [after, stays.silent, dispatched]
  rfl

end Turn

namespace Core.Course

variable {program : List Instruction} {core last : Core} {turns later : List Turn} {turn : Turn}

/-! ## Runs -/

/-- A course never gets past a turn that leaves the core as it found it. -/
theorem eq_of_fixed (fixed : turn.after [] = turn.core)
    (fetched : program[turn.core.cpu.ip]? = some turn.instruction)
    (course : turn.core.Course [] program later last) : last = turn.core := by
  induction later with
  | nil =>
    cases course
    rfl
  | cons next others ih =>
    cases course with
    | cons running fetched' rest =>
      cases fetched.symm.trans fetched'
      rw [fixed] at rest
      exact ih rest

private theorem eq_of_stays (course : core.Course [] program turns last) (member : turn ∈ turns)
    (stays : turn.Stays) :
    last = turn.core ∧ turn.core.cpu.halted = false ∧ turn.core.cpu.ip < program.length := by
  obtain ⟨earlier, later, rfl⟩ := List.append_of_mem member
  obtain ⟨running, fetched, rest⟩ := course.split
  rw [stays.after_eq] at rest
  exact ⟨rest.eq_of_fixed stays.after_eq fetched, running, (List.getElem?_eq_some_iff.mp fetched).1⟩

end Core.Course

namespace Machine

/-- On a machine that has learnt nothing, a turn that takes effect without a halt and leaves the
pointer at its instruction is one of a jump that is not taken, a jump to itself or a skip of no
distance; only at the last place that a pointer can have, which lies beyond every program, would a
longer skip stay as well. The run never gets past such a turn: it spends all its fuel and ends with
everything but the log as that turn has found it. A run that ends, within fuel or without a limit,
has taken every conditional jump that it came to. -/
theorem execute_stall (machine : Machine) (unlearnt : machine.handlers = [])
    (program : List Instruction) :
    (∀ fuel, machine.core.config.fuel = some fuel →
      let result := machine.execute program
      ∃ turns last, machine.Ran program turns last result ∧
        ∀ turn ∈ turns, turn.Stays →
          (program.length < UInt64.size → turn.core.Stalls turn.instruction) ∧
          result.2.outcome = .outOfFuel ∧ result.2.steps = fuel.toNat ∧
          result.1 = { machine with core := { turn.core with log := result.1.core.log } }) ∧
    (∀ result,
      (result = machine.execute program ∧ result.2.outcome ≠ .outOfFuel) ∨
        machine.Ends program result →
      ∃ turns last, machine.Ran program turns last result ∧
        ∀ turn ∈ turns, ∀ condition address, turn.instruction = .jumpIf condition address →
          condition.holds turn.core.cpu.registers.flag = true) := by
  constructor
  · intro fuel limited
    rw [execute_of_fuel limited]
    obtain ⟨turns, last, ran, -, ended⟩ := machine.exists_ran fuel.toNat program
    refine ⟨turns, last, ran, ?_⟩
    intro turn member stays
    obtain ⟨rfl, running, inside⟩ := (unlearnt ▸ ran.course).eq_of_stays member stays
    obtain ⟨outcome, spent⟩ := ended.of_inside running inside
    refine ⟨fun short => ?_, outcome, ran.steps.trans spent, ran.left⟩
    have room : turn.core.cpu.ip < Core.lastIp := by
      unfold Core.lastIp
      omega
    exact (Core.stalls_iff running room).mpr (Turn.stays_iff.mp stays).2
  · intro result ends
    obtain ⟨bound, rfl, finished⟩ : machine.Ends program result := by
      rcases ends with ⟨rfl, finished⟩ | ends
      · exact ⟨_, rfl, finished⟩
      · exact ends
    obtain ⟨turns, last, ran, -, ended⟩ := machine.exists_ran bound program
    refine ⟨turns, last, ran, ?_⟩
    intro turn member condition address jump
    by_contra fails
    have idle : turn.core.step turn.instruction = (turn.core, none) := by
      rw [jump, Core.step_of_untaken (Bool.eq_false_iff.mpr fails)]
    have course := unlearnt ▸ ran.course
    have stays := Turn.stays_iff.mpr ⟨(course.of_mem member).1, idle⟩
    obtain ⟨rfl, running, inside⟩ := course.eq_of_stays member stays
    exact finished (ended.of_inside running inside).1

/-- A jump that is never taken, and one that is taken to the end. -/
theorem execute_stall_samples :
    let machine := Machine.ofConfig { fuel := some 3 }
    let stuck := machine.execute [.compare .ax 1, .jumpIf .equal 0]
    let passed := machine.execute [.compare .ax 0, .jumpIf .equal 2]
    (∃ turn : Turn, turn.Stays ∧ turn.core.Stalls turn.instruction ∧
      stuck.2.outcome = .outOfFuel ∧ stuck.2.steps = 3) ∧
    (passed.2.outcome = .completed ∧ ∃ turn : Turn, turn.instruction = .jumpIf .equal 2 ∧
      Condition.equal.holds turn.core.cpu.registers.flag = true) := by
  intro machine stuck passed
  have spent : stuck.2.steps = 3 := by decide +kernel
  have ended : passed.2 = ⟨.completed, 2, #[]⟩ := by decide +kernel
  have stalls := (execute_stall machine rfl [.compare .ax 1, .jumpIf .equal 0]).1 3 rfl
  have takes := (execute_stall machine rfl [.compare .ax 0, .jumpIf .equal 2]).2 passed
    (.inl ⟨rfl, by rw [ended]; decide⟩)
  constructor
  · obtain ⟨turns, last, ran, stalls⟩ := stalls
    let compared : Turn := ⟨machine.core.setIp 0, .compare .ax 1⟩
    let stayed : Turn := ⟨compared.after [], .jumpIf .equal 0⟩
    have course : (machine.core.setIp 0).Course [] [.compare .ax 1, .jumpIf .equal 0]
        [compared, stayed, stayed] stayed.core :=
      .cons rfl rfl (.cons rfl rfl (.cons rfl rfl (.nil _)))
    obtain ⟨rfl, -⟩ := ran.course.unique course (ran.steps.symm.trans spent)
    have stays : stayed.Stays := ⟨rfl, rfl, rfl⟩
    obtain ⟨stall, outcome, steps, -⟩ := stalls stayed (by simp) stays
    exact ⟨stayed, stays, stall (by decide), outcome, steps⟩
  · obtain ⟨turns, last, ran, takes⟩ := takes
    let compared : Turn := ⟨machine.core.setIp 0, .compare .ax 0⟩
    let jumped : Turn := ⟨compared.after [], .jumpIf .equal 2⟩
    have course : (machine.core.setIp 0).Course [] [.compare .ax 0, .jumpIf .equal 2]
        [compared, jumped] (jumped.after []) := .cons rfl rfl (.cons rfl rfl (.nil _))
    have steps : passed.2.steps = 2 := by rw [ended]
    obtain ⟨rfl, -⟩ := ran.course.unique course (ran.steps.symm.trans steps)
    exact ⟨congrArg RunReport.outcome ended, jumped, rfl, takes jumped (by simp) .equal 2 rfl⟩

end Machine

end RegisterMachine
