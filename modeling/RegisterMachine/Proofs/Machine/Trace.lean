import RegisterMachine.Proofs.Machine.Action
import RegisterMachine.Proofs.Machine.Course
import RegisterMachine.Proofs.Machine.Visit
import RegisterMachine.Proofs.Success

/-! # The turns of a history

Whatever is asked of a machine comes down to turns: a run takes them one after another, and a tick
gives one to each process that is due. They are listed here with the cores that they really find, so
that a condition on a history can be put to what is carried out in it and to nothing else.
-/

namespace RegisterMachine

namespace Core

def turnsFrom (handlers : Handlers) (program : Array Instruction) : Nat → Core → List Turn
  | 0, _ => []
  | fuel + 1, core =>
    if core.cpu.halted then []
    else
      match program[core.cpu.ip]? with
      | none => []
      | some instruction =>
        let turn : Turn := ⟨core, instruction⟩
        turn :: turnsFrom handlers program fuel (turn.after handlers)

def turns (handlers : Handlers) (core : Core) (program : List Instruction) : List Turn :=
  turnsFrom handlers program.toArray (allowance core.config program) (core.setIp 0)

variable {handlers : Handlers} {program : Array Instruction} {fuel : Nat} {core : Core}

theorem turnsFrom_of_halted (stopped : core.cpu.halted = true) :
    core.turnsFrom handlers program fuel = [] := by
  cases fuel <;> simp [turnsFrom, stopped]

theorem turnsFrom_of_ended (ended : program[core.cpu.ip]? = none) :
    core.turnsFrom handlers program fuel = [] := by
  cases fuel <;> simp [turnsFrom, ended]

theorem turnsFrom_succ (running : core.cpu.halted = false) {instruction : Instruction}
    (fetched : program[core.cpu.ip]? = some instruction) :
    core.turnsFrom handlers program (fuel + 1) =
      ⟨core, instruction⟩ :: (Turn.after handlers ⟨core, instruction⟩).turnsFrom handlers program
        fuel := by
  simp [turnsFrom, running, fetched]

private theorem instruction_mem_of_turnsFrom {turn : Turn}
    (taken : turn ∈ core.turnsFrom handlers program fuel) : turn.instruction ∈ program := by
  induction fuel generalizing core with
  | zero => contradiction
  | succ fuel ih =>
    unfold turnsFrom at taken
    split at taken
    · contradiction
    · split at taken
      · contradiction
      · next instruction fetched =>
        rcases List.mem_cons.mp taken with rfl | later
        · exact Array.mem_of_getElem? fetched
        · exact ih later

end Core

/-- The turn that a process has when it is visited, if it is due. -/
def Process.turn? (process : Process) (core : Core) : Option Turn :=
  if process.isReady then
    process.program[process.ip]?.map fun instruction => ⟨process.enter core, instruction⟩
  else none

namespace Process

variable {process : Process} {core : Core}

theorem turn?_of_halted (stopped : process.state = .halted) : process.turn? core = none := by
  simp [turn?, isReady_eq_false_iff.mpr stopped]

theorem turn?_of_ended (ended : process.program[process.ip]? = none) :
    process.turn? core = none := by
  simp [turn?, ended]

theorem turn?_of_fetched (ready : process.state = .ready) {instruction : Instruction}
    (fetched : process.program[process.ip]? = some instruction) :
    process.turn? core = some ⟨process.enter core, instruction⟩ := by
  simp [turn?, isReady_iff.mpr ready, fetched]

end Process

/-- The turns of processes that are visited in order. -/
def Core.sweepTurns (handlers : Handlers) (tick : Nat) (core : Core) : List Process → List Turn
  | [] => []
  | process :: others =>
    (process.turn? core).toList ++
      (process.visit handlers tick core).1.sweepTurns handlers tick others

/-- What holds of the turns of a sweep holds of that of the first process and of those after it. -/
theorem Core.forall_sweepTurns_cons {handlers : Handlers} {tick : Nat} {core : Core}
    {process : Process} {others : List Process} {holds : Turn → Prop} :
    (∀ turn ∈ core.sweepTurns handlers tick (process :: others), holds turn) ↔
      (∀ turn ∈ process.turn? core, holds turn) ∧
        ∀ turn ∈ (process.visit handlers tick core).1.sweepTurns handlers tick others,
          holds turn := by
  simp only [sweepTurns, List.forall_mem_append, Option.mem_toList, Option.mem_def]

private theorem Core.instruction_mem_of_sweepTurns {handlers : Handlers} {tick : Nat} {core : Core}
    {processes : List Process} {turn : Turn}
    (taken : turn ∈ core.sweepTurns handlers tick processes) :
    ∃ process ∈ processes, process.isReady ∧ turn.instruction ∈ process.program := by
  induction processes generalizing core with
  | nil => contradiction
  | cons process others ih =>
    rcases List.mem_append.mp taken with first | later
    · refine ⟨process, List.mem_cons_self, ?_⟩
      have due := Option.mem_toList.mp first
      unfold Process.turn? at due
      split at due
      · next ready =>
        obtain ⟨instruction, fetched, rfl⟩ := Option.map_eq_some_iff.mp due
        exact ⟨ready, List.mem_of_getElem? fetched⟩
      · contradiction
    · obtain ⟨other, member, found⟩ := ih later
      exact ⟨other, List.mem_cons_of_mem process member, found⟩

namespace Machine

def turnsOf (machine : Machine) : Action → List Turn
  | .execute program => machine.core.turns machine.handlers program
  | .dispatch instruction => [⟨machine.core, instruction⟩]
  | .tick =>
    machine.core.sweepTurns machine.handlers (machine.table.ticks + 1) machine.table.processes
  | .spawn _ | .kill _ | .reset => []

def turns (machine : Machine) : List Action → List Turn
  | [] => []
  | action :: others => machine.turnsOf action ++ (machine.act action).turns others

/-- The instructions that an action may carry out: those of the program that it runs, or those of
all processes that still run. -/
def used (machine : Machine) : Action → List Instruction
  | .execute program => program
  | .dispatch instruction => [instruction]
  | .tick => (machine.table.processes.filter Process.isReady).flatMap Process.program
  | .spawn _ | .kill _ | .reset => []

/-- The instructions that actions may carry out, each with what runs at its time. -/
def uses (machine : Machine) : List Action → List Instruction
  | [] => []
  | action :: others => machine.used action ++ (machine.act action).uses others

variable {machine : Machine} {turn : Turn}

private theorem instruction_mem_used {action : Action} (taken : turn ∈ machine.turnsOf action) :
    turn.instruction ∈ machine.used action := by
  cases action with
  | execute program => exact List.mem_toArray.mp (Core.instruction_mem_of_turnsFrom taken)
  | dispatch instruction =>
    obtain rfl := List.mem_singleton.mp taken
    exact List.mem_singleton.mpr rfl
  | tick =>
    obtain ⟨process, member, ready, inside⟩ := Core.instruction_mem_of_sweepTurns taken
    exact List.mem_flatMap.mpr ⟨process, List.mem_filter.mpr ⟨member, ready⟩, inside⟩
  | spawn program => contradiction
  | kill pid => contradiction
  | reset => contradiction

/-- What is carried out in the course of actions is among what they may carry out. -/
theorem instruction_mem_uses {actions : List Action} (taken : turn ∈ machine.turns actions) :
    turn.instruction ∈ machine.uses actions := by
  induction actions generalizing machine with
  | nil => contradiction
  | cons action others ih =>
    rcases List.mem_append.mp taken with now | later
    · exact List.mem_append_left _ (instruction_mem_used now)
    · exact List.mem_append_right _ (ih later)

theorem handlers_act (machine : Machine) (action : Action) :
    (machine.act action).handlers = machine.handlers := by
  cases action with
  | kill pid =>
    rw [act]
    split
    · next killed success =>
      obtain ⟨table, -, rfl⟩ := map_eq_ok_iff.mp success
      rfl
    · rfl
  | _ => rfl

theorem handlers_run (machine : Machine) (actions : List Action) :
    (machine.run actions).handlers = machine.handlers := by
  induction actions generalizing machine with
  | nil => rfl
  | cons action others ih => exact (ih (machine.act action)).trans (machine.handlers_act action)

end Machine

end RegisterMachine
