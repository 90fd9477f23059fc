import RegisterMachine.Machine.Samples
import RegisterMachine.Proofs.Instruction.Recognition
import RegisterMachine.Proofs.Machine.Interleaving
import RegisterMachine.Proofs.Machine.Unnoticed

/-! # Learning a mnemonic that nothing uses

What has been learnt under a mnemonic is looked up for the instructions of that mnemonic and for
nothing else. A machine that learns one therefore goes on as if it had not, unless an instruction of
that mnemonic is carried out, be it one of a program or one that a handler dispatches; and programs
have none where the mnemonic is built in and all of them are decoded.
-/

namespace RegisterMachine

/-! ## Cores that have learnt otherwise -/

/-- Cores that differ at most in what they have learnt under a mnemonic. -/
structure Core.SameBut (name : String) (left right : Core) : Prop where
  rest : left = { right with learnt := left.learnt }
  learnt : ∀ called, called ≠ name → left.learnt called = right.learnt called

namespace Core

variable {name : String} {left right : Core}

private theorem sameBut_learn (core : Core) (name : String) (place : Nat) :
    (core.learn name place).SameBut name core :=
  ⟨rfl, fun _ other => if_neg other⟩

private theorem unnoticed_sameBut (name : String) : Unnoticed (SameBut name) where
  cpu same := by rw [same.rest]
  memory same := by rw [same.rest]
  files same := by rw [same.rest]
  policy same := by rw [same.rest]
  setCpu cpu same := ⟨congrArg (fun core => { core with cpu }) same.rest, same.learnt⟩
  note level message same := ⟨congrArg (note · level message) same.rest, same.learnt⟩
  alter {left right} change same := by
    refine ⟨?_, ?_⟩
    · rw [learnt_alter]
      have moved : left.alter change = ({ right with learnt := left.learnt } : Core).alter change :=
        congrArg (alter · change) same.rest
      rw [moved]
      unfold alter
      split <;> simp [emitAll_eq, note]
    · rw [learnt_alter, learnt_alter]
      exact same.learnt

/-- Instructions of other mnemonics are carried out by the same handlers. -/
private theorem SameBut.handler? (same : left.SameBut name right) (handlers : Handlers)
    {instruction : Instruction} (unused : ∀ operand, instruction ≠ .other name operand) :
    left.handler? handlers instruction = right.handler? handlers instruction := by
  cases instruction with
  | other called operand =>
    have other : called ≠ name := by
      rintro rfl
      exact unused operand rfl
    rw [Core.handler?, Core.handler?, lookup, lookup, same.learnt called other]
  | _ => rfl

end Core

/-- A handler that does the same whatever has been learnt under a mnemonic. -/
def Handler.Overlooks (name : String) (handler : Handler) : Prop :=
  ∀ left right operand, Core.SameBut name left right →
    (handler left operand).1.SameBut name (handler right operand).1 ∧
      (handler left operand).2 = (handler right operand).2

namespace Turn

variable {others handlers : Handlers} {name : String} {turn : Turn}

/-- The place by which the mnemonic of a turn has been learnt. -/
def place? (turn : Turn) : Option Nat :=
  match turn.instruction with
  | .other name _ => turn.core.learnt name
  | _ => none

/-- A handler that comes to be known is found only where its place had been learnt before. -/
private theorem handler?_append (vacant : turn.place? ≠ some handlers.length) (handler : Handler) :
    turn.handler? (handlers ++ [handler]) = turn.handler? handlers := by
  obtain ⟨core, instruction⟩ := turn
  cases instruction with
  | other called operand =>
    replace vacant : core.learnt called ≠ some handlers.length := vacant
    show core.lookup (handlers ++ [handler]) called = core.lookup handlers called
    rw [Core.lookup, Core.lookup]
    cases learnt : core.learnt called with
    | none => rfl
    | some place =>
      have elsewhere : place ≠ handlers.length := by
        rintro rfl
        exact vacant learnt
      rw [Option.bind_some, Option.bind_some, List.getElem?_append]
      split
      · rfl
      · rw [List.getElem?_eq_none, List.getElem?_eq_none]
        · omega
        · simp only [List.length_singleton]
          omega
  | _ => rfl

/-- A turn whose handler, if one carries it out, does the same whatever has been learnt under a
mnemonic. -/
def Overlooks (handlers : Handlers) (name : String) (turn : Turn) : Prop :=
  ∀ called operand handler, turn.instruction = .other called operand →
    turn.core.lookup handlers called = some handler →
    ∀ core, core.SameBut name turn.core →
      (handler core operand).1.SameBut name (handler turn.core operand).1 ∧
        (handler core operand).2 = (handler turn.core operand).2

/-- Where all known handlers do the same whatever has been learnt under a mnemonic, every turn
does. -/
theorem overlooks_of_known (overlook : ∀ handler ∈ handlers, handler.Overlooks name)
    (turn : Turn) : turn.Overlooks handlers name := by
  intro called operand handler _ found core same
  exact overlook handler (Core.mem_of_found found) core turn.core operand same

/-- A turn that overlooks what has been learnt is not aware of it, as long as the same handler is
found for it. -/
private theorem Overlooks.unaware (overlooks : turn.Overlooks handlers name)
    (finds : ∀ core : Core, core.SameBut name turn.core →
      core.handler? others turn.instruction = turn.handler? handlers) :
    turn.Unaware others handlers (Core.SameBut name) := by
  cases learnt : turn.handler? handlers with
  | none => exact (Core.unnoticed_sameBut name).unaware learnt finds
  | some handler =>
    intro core same
    obtain ⟨called, operand, is_other, found⟩ := Core.handler?_eq_some_iff.mp learnt
    have found' : core.handler? others turn.instruction = some handler :=
      (finds core same).trans learnt
    rw [is_other] at found' ⊢
    replace found' : core.lookup others called = some handler := found'
    rw [Core.apply, Core.apply, found, found']
    exact overlooks called operand handler is_other found core same

end Turn

/-- A handler that passes on to some other mnemonic overlooks one, if those that it knows do. -/
theorem Handler.overlooks_call {known : Handlers} {name called : String} (other : called ≠ name)
    (overlook : ∀ handler ∈ known, handler.Overlooks name) :
    (Handler.call known called).Overlooks name := by
  intro left right operand same
  have unaware : Turn.Unaware known known (Core.SameBut name) ⟨right, .other called operand⟩ := by
    refine (Turn.overlooks_of_known overlook _).unaware fun core same => same.handler? known ?_
    intro kept passed
    exact other (Instruction.other.inj passed).1
  exact (Core.unnoticed_sameBut name).dispatch unaware same

/-- A run depends on what has been learnt for its turns. -/
private theorem Core.SameBut.run {name : String} {left right : Core} {others handlers : Handlers}
    {program : List Instruction} (same : left.SameBut name right)
    (unaware : ∀ turn ∈ right.turns handlers program,
      turn.Unaware others handlers (Core.SameBut name)) :
    (left.run others program).1.SameBut name (right.run handlers program).1 ∧
      (left.run others program).2 = (right.run handlers program).2 := by
  have unnoticed := unnoticed_sameBut name
  have fuel : left.config = right.config := by rw [same.rest]
  rw [Core.run, Core.run, fuel]
  exact unnoticed.runFrom unaware (unnoticed.setIp same 0) 0 #[]

namespace Machine

/-! ## Histories -/

/-- What an action reports. -/
inductive Answer where
  | spawned (pid : Nat)
  | killed (refused : Option NoSuchProcess)
  | ticked (report : TickReport)
  | executed (report : RunReport)
  | dispatched (fault : Option Fault)
  | reset
  deriving DecidableEq, Repr

def answer (machine : Machine) : Action → Answer
  | .spawn program => .spawned (machine.spawn program).2
  | .kill pid =>
    match machine.kill pid with
    | .ok _ => .killed none
    | .error refused => .killed (some refused)
  | .tick => .ticked machine.tick.2
  | .execute program => .executed (machine.execute program).2
  | .dispatch instruction => .dispatched (machine.dispatch instruction).2
  | .reset => .reset

def answers (machine : Machine) : List Action → List Answer
  | [] => []
  | action :: others => machine.answer action :: (machine.act action).answers others

/-- Machines that differ at most in what they have learnt under a mnemonic, and in the handlers that
they know. -/
structure SameBut (name : String) (left right : Machine) : Prop where
  core : left.core.SameBut name right.core
  table : left.table = right.table

variable {name : String} {left right : Machine} {action : Action} {actions : List Action}

/-- An action depends on what has been learnt for the turns that it comes to. -/
private theorem SameBut.act (same : left.SameBut name right)
    (unaware : ∀ turn ∈ right.turnsOf action,
      turn.Unaware left.handlers right.handlers (Core.SameBut name)) :
    (left.act action).SameBut name (right.act action) ∧
      left.answer action = right.answer action := by
  have unnoticed := Core.unnoticed_sameBut name
  obtain ⟨before, table, others⟩ := left
  obtain ⟨after, table', handlers⟩ := right
  obtain ⟨core, tables⟩ := same
  cases tables
  replace core : before.SameBut name after := core
  cases action with
  | spawn program => exact ⟨⟨unnoticed.note _ _ core, rfl⟩, rfl⟩
  | kill pid =>
    rw [Machine.act, Machine.act, answer, answer, kill, kill]
    cases table.kill pid with
    | ok killed => exact ⟨⟨unnoticed.note _ _ core, rfl⟩, rfl⟩
    | error refused => exact ⟨⟨core, rfl⟩, rfl⟩
  | tick =>
    replace unaware : ∀ turn ∈ after.sweepTurns handlers (table.ticks + 1) table.processes,
      turn.Unaware others handlers (Core.SameBut name) := unaware
    obtain ⟨swept, result⟩ := unnoticed.sweep unaware core
    have reports := congrArg Prod.snd result
    refine ⟨⟨?_, ?_⟩, congrArg Answer.ticked reports⟩
    · show Core.SameBut name { (before.sweep others _ _).1 with cpu := before.cpu }
        { (after.sweep handlers _ _).1 with cpu := after.cpu }
      rw [unnoticed.cpu core]
      exact unnoticed.setCpu _ swept
    · exact congrArg (fun result => { table with
        processes := result.1, ticks := table.ticks + 1 }) result
  | execute program =>
    obtain ⟨ran, report⟩ := core.run unaware
    exact ⟨⟨ran, rfl⟩, congrArg Answer.executed report⟩
  | dispatch instruction =>
    obtain ⟨dispatched, raised⟩ := unnoticed.dispatch (unaware _ List.mem_cons_self) core
    exact ⟨⟨dispatched, rfl⟩, congrArg Answer.dispatched raised⟩
  | reset => exact ⟨⟨unnoticed.setCpu _ core, rfl⟩, rfl⟩

private theorem SameBut.run (same : left.SameBut name right)
    (unaware : ∀ turn ∈ right.turns actions,
      turn.Unaware left.handlers right.handlers (Core.SameBut name)) :
    (left.run actions).SameBut name (right.run actions) ∧
      left.answers actions = right.answers actions := by
  induction actions generalizing left right with
  | nil => exact ⟨same, rfl⟩
  | cons action later ih =>
    rw [turns, List.forall_mem_append] at unaware
    obtain ⟨acted, answered⟩ := same.act unaware.1
    rw [← left.handlers_act action, ← right.handlers_act action] at unaware
    obtain ⟨ran, reports⟩ := ih acted unaware.2
    rw [answers, answers, answered, reports]
    exact ⟨ran, rfl⟩

/-! ## Learning -/

/-- How a machine comes to have learnt a mnemonic before some actions: by a handler that it knows,
or by one that it comes to know then. No turn must be one of a mnemonic that had been learnt by the
very place at which the new handler stands. -/
inductive Taught (machine : Machine) (name : String) (actions : List Action) : Machine → Prop
  | known (place : Nat) : Taught machine name actions (machine.register name place)
  | new (handler : Handler)
      (vacant : ∀ turn ∈ machine.turns actions, turn.place? ≠ some machine.handlers.length) :
      Taught machine name actions (machine.learn name handler)

variable {machine taught : Machine}

private theorem Taught.sameBut (teaching : machine.Taught name actions taught) :
    taught.SameBut name machine := by
  cases teaching with
  | known place => exact ⟨machine.core.sameBut_learn name place, rfl⟩
  | new handler vacant => exact ⟨machine.core.sameBut_learn name machine.handlers.length, rfl⟩

private theorem Taught.handler? (teaching : machine.Taught name actions taught) {turn : Turn}
    (taken : turn ∈ machine.turns actions) :
    turn.handler? taught.handlers = turn.handler? machine.handlers := by
  cases teaching with
  | known place => rfl
  | new handler vacant => exact Turn.handler?_append (vacant turn taken) handler

/-- No decoded instruction has a built-in mnemonic as that of a learnt one. -/
theorem ne_other_of_decode {name called : String} (builtIn : Mnemonic.BuiltIn name)
    {operand : Option Operand} {instruction : Instruction}
    (success : Instruction.decode called operand = .ok instruction) (kept : Option Operand) :
    instruction ≠ .other name kept := by
  rintro rfl
  have foreign : name ∉ Mnemonic.table.map Prod.fst := Instruction.canonical_of_decode success
  exact foreign (Mnemonic.builtIn_iff.mp builtIn)

private theorem other_not_mem {instructions : List Instruction} {name : String}
    (others : ∀ instruction ∈ instructions, instruction.mnemonic ≠ name)
    (operand : Option Operand) : .other name operand ∉ instructions :=
  fun member => others _ member rfl

private theorem overlooks_say (name : String) : Handler.Overlooks name .say := by
  intro left right operand same
  rw [same.rest]
  cases operand <;> exact ⟨⟨rfl, same.learnt⟩, rfl⟩

end Machine

end RegisterMachine
