import RegisterMachine.Machine.Basic
import RegisterMachine.Machine.Samples
import RegisterMachine.Proofs.Machine.Agreement

/-! # What a fault leaves behind

A built-in instruction that raises a fault has done nothing before it, so that a dispatch only
settles the fault: a fatal one halts at the instruction, any other moves the pointer past it. A
handler may have done anything before it fails. The pointer is put past the instruction all the same
where the fault is not fatal, but after a fatal one it stays where the handler has left it.
-/

namespace RegisterMachine

/-- Whether nothing carries out the mnemonic that raised the fault. -/
def Fault.isUnknown : Fault → Bool
  | unknownMnemonic _ => true
  | _ => false

namespace Core

variable {handlers : Handlers} {core : Core} {instruction : Instruction} {fault : Fault}

/-- The handler that carries out an instruction, if one is found for its mnemonic. -/
def handler? (handlers : Handlers) (core : Core) : Instruction → Option Handler
  | .other name _ => core.lookup handlers name
  | _ => none

theorem handler?_nil (core : Core) (instruction : Instruction) :
    core.handler? [] instruction = none := by
  cases instruction <;> simp [handler?]

theorem handler?_eq_some_iff {handler : Handler} :
    core.handler? handlers instruction = some handler ↔
      ∃ name operand, instruction = .other name operand ∧
        core.lookup handlers name = some handler := by
  cases instruction <;> simp [handler?]

theorem mem_of_found {name : String} {handler : Handler}
    (found : core.lookup handlers name = some handler) : handler ∈ handlers := by
  obtain ⟨place, -, known⟩ := Option.bind_eq_some_iff.mp found
  exact List.mem_of_getElem? known

/-! ## Settling -/

theorem halts_iff {policy : Config.UnknownPolicy} :
    halts policy fault = true ↔ fault.isFatal ∨ fault.isUnknown ∧ policy = .halt := by
  cases fault <;> simp [halts, Fault.isFatal, Fault.isUnknown]

/-- A fatal fault halts where the instruction left the pointer. -/
theorem settle_of_isFatal (fatal : fault.isFatal) (fetched : Nat) :
    core.settle fetched fault = core.halt := by
  rw [settle, halts_of_isFatal _ fatal]
  simp [fatal]

/-- A fault that is not fatal moves the pointer past the instruction, wherever that has left it. -/
theorem settle_of_recoverable (recoverable : fault.isFatal = false) (fetched : Nat) :
    core.settle fetched fault =
      if fault.isUnknown ∧ core.config.unknownMnemonic = .halt then (core.setIp (fetched + 1)).halt
      else core.setIp (fetched + 1) := by
  cases fault with
  | bounds fault => contradiction
  | arithmetic fault => contradiction
  | files error => rfl
  | unknownMnemonic name => simp [settle, halts, Fault.isFatal, Fault.isUnknown]
  | invalidOperand mnemonic reason => rfl

/-! ## One instruction -/

theorem apply_of_unlearnt (unlearnt : core.handler? handlers instruction = none) :
    core.apply handlers instruction = core.step instruction := by
  cases instruction with
  | other name operand =>
    have unknown : core.lookup handlers name = none := unlearnt
    rw [apply, unknown]
  | _ => rfl

theorem dispatch_of_unlearnt (unlearnt : core.handler? handlers instruction = none) :
    core.dispatch handlers instruction = core.dispatch [] instruction := by
  rw [dispatch, dispatch, apply_of_unlearnt unlearnt, apply_of_unlearnt (handler?_nil _ _)]

/-- An instruction that no handler carries out leaves all handlers where they are found. -/
theorem handler?_dispatch (unlearnt : core.handler? handlers instruction = none)
    (other : Instruction) :
    (core.dispatch handlers instruction).1.handler? handlers other =
      core.handler? handlers other := by
  have kept : (core.dispatch handlers instruction).1.learnt = core.learnt := by
    rw [dispatch_of_unlearnt unlearnt, learnt_dispatch]
  cases other with
  | other name operand => rw [handler?, handler?, lookup, lookup, kept]
  | _ => rfl

/-- A built-in instruction raises its fault before it has done anything. -/
theorem step_of_fault (raised : (core.step instruction).2 = some fault) :
    core.step instruction = (core, some fault) := by
  obtain ⟨effect, -, same⟩ := core.exists_step_eq instruction
  rw [same] at raised ⊢
  cases effect with
  | fail other =>
    cases raised
    rfl
  | next change => contradiction
  | redirect ip => contradiction
  | halt => contradiction

theorem step_of_silent (silent : (core.dispatch [] instruction).2 = none) :
    (core.step instruction).2 = none ∧
      core.dispatch [] instruction = ((core.step instruction).1, none) := by
  cases raised : (core.step instruction).2 with
  | none => exact ⟨rfl, dispatch_of_success raised⟩
  | some fault =>
    rw [dispatch_of_failure raised] at silent
    contradiction

/-- A dispatch that raises a fault has settled it on what the instruction left. -/
theorem dispatch_of_fault (raised : (core.dispatch handlers instruction).2 = some fault) :
    (core.apply handlers instruction).2 = some fault ∧
      (core.dispatch handlers instruction).1 =
        (core.apply handlers instruction).1.settle core.cpu.ip fault := by
  rcases applied : core.apply handlers instruction with ⟨left, _ | other⟩
  · simp [dispatch, applied] at raised
  · simp only [dispatch, applied, Option.some.injEq] at raised
    subst raised
    simp [dispatch, applied]

theorem dispatch_of_none (silent : (core.dispatch handlers instruction).2 = none) :
    core.dispatch handlers instruction = ((core.apply handlers instruction).1, none) := by
  rcases applied : core.apply handlers instruction with ⟨left, _ | other⟩
  · simp [dispatch, applied]
  · simp [dispatch, applied] at silent

theorem dispatch_of_fault_of_unlearnt (unlearnt : core.handler? handlers instruction = none)
    (raised : (core.dispatch handlers instruction).2 = some fault) :
    (core.dispatch handlers instruction).1 = core.settle core.cpu.ip fault := by
  obtain ⟨failed, settled⟩ := dispatch_of_fault raised
  rw [apply_of_unlearnt unlearnt] at failed settled
  rw [settled, step_of_fault failed]

/-! ## Instructions that stop what runs them -/

/-- Why an instruction stops what runs it: it is the one that halts, its handler halts, it raises a
fatal fault, or nothing carries out its mnemonic and the policy is to halt then. -/
inductive Stops (handlers : Handlers) (core : Core) (instruction : Instruction) : Prop
  | halt (halts : instruction = .halt)
  | handler {name : String} {operand : Option Operand} {handler : Handler}
      (other : instruction = .other name operand)
      (learnt : core.lookup handlers name = some handler)
      (halts : (handler core operand).1.cpu.halted = true)
  | fatal {fault : Fault} (raised : (core.dispatch handlers instruction).2 = some fault)
      (fatal : fault.isFatal)
  | unknown {fault : Fault} (raised : (core.dispatch handlers instruction).2 = some fault)
      (unknown : fault.isUnknown)
      (policy : (core.dispatch handlers instruction).1.config.unknownMnemonic = .halt)

private theorem halted_step_iff (running : core.cpu.halted = false) :
    (core.step instruction).1.cpu.halted = true ↔ instruction = .halt := by
  constructor
  · intro halted
    obtain ⟨effect, suits, same⟩ := core.exists_step_eq instruction
    rw [same] at halted
    cases suits with
    | fail fault => simp [undergo, fail, running] at halted
    | next change => simp [undergo, next, advance, setIp, running] at halted
    | redirect ip => simp [undergo, stay, setIp, running] at halted
    | halt halts => exact halts
  · rintro rfl
    rfl

/-- Apart from its faults, an instruction halts if it is the one that does or its handler halts. -/
theorem halted_apply_iff (running : core.cpu.halted = false) :
    (core.apply handlers instruction).1.cpu.halted = true ↔
      instruction = .halt ∨ ∃ name operand handler, instruction = .other name operand ∧
        core.lookup handlers name = some handler ∧ (handler core operand).1.cpu.halted = true := by
  cases learnt : core.handler? handlers instruction with
  | none =>
    rw [apply_of_unlearnt learnt, halted_step_iff running]
    refine ⟨.inl, fun halts => halts.resolve_right ?_⟩
    rintro ⟨name, operand, handler, rfl, found, -⟩
    cases learnt.symm.trans found
  | some handler =>
    obtain ⟨name, operand, rfl, found⟩ := Core.handler?_eq_some_iff.mp learnt
    rw [apply, found]
    constructor
    · intro halted
      exact .inr ⟨name, operand, handler, rfl, found, halted⟩
    · rintro (halts | ⟨_, _, _, ⟨⟩, other, halted⟩)
      · contradiction
      · cases found.symm.trans other
        exact halted

/-- A dispatch halts where the instruction does so by itself and where it raises a fault that
halts. -/
theorem halted_dispatch_iff (handlers : Handlers) (core : Core) (instruction : Instruction) :
    (core.dispatch handlers instruction).1.cpu.halted = true ↔
      (core.apply handlers instruction).1.cpu.halted = true ∨
        ∃ fault, (core.dispatch handlers instruction).2 = some fault ∧
          (fault.isFatal ∨ fault.isUnknown ∧
            (core.dispatch handlers instruction).1.config.unknownMnemonic = .halt) := by
  cases raised : (core.dispatch handlers instruction).2 with
  | none => simp [dispatch_of_none raised]
  | some fault =>
    rw [(dispatch_of_fault raised).2, settle_eq]
    simp [halts_iff]

/-- An instruction that finds the processor running leaves it halted for the reasons given and for
no other. -/
theorem stops_iff (running : core.cpu.halted = false) :
    (core.dispatch handlers instruction).1.cpu.halted = true ↔
      core.Stops handlers instruction := by
  rw [halted_dispatch_iff, halted_apply_iff running]
  constructor
  · rintro ((halts | ⟨name, operand, handler, other, learnt, halts⟩) |
      ⟨fault, raised, fatal | ⟨unknown, policy⟩⟩)
    · exact .halt halts
    · exact .handler other learnt halts
    · exact .fatal raised fatal
    · exact .unknown raised unknown policy
  · rintro (halts | ⟨other, learnt, halts⟩ | ⟨raised, fatal⟩ | ⟨raised, unknown, policy⟩)
    · exact .inl (.inl halts)
    · exact .inl (.inr ⟨_, _, _, other, learnt, halts⟩)
    · exact .inr ⟨_, raised, .inl fatal⟩
    · exact .inr ⟨_, raised, .inr ⟨unknown, policy⟩⟩

end Core

namespace Machine

/-! ## Built-in instructions -/

/-- An instruction that no handler carries out and that raises a fault leaves everything as it was
but the pointer and the halt flag. A fatal fault halts and leaves the pointer as well; any other
moves it to the next instruction and halts only where nothing carries out the mnemonic and the
policy is to halt then. -/
theorem dispatch_fault_atomic (machine : Machine) (instruction : Instruction)
    (unlearnt : machine.core.handler? machine.handlers instruction = none) (fault : Fault)
    (raised : (machine.dispatch instruction).2 = some fault) :
    let before := machine.core.cpu
    let after := (machine.dispatch instruction).1.core.cpu
    (machine.dispatch instruction).1 = { machine with core := { machine.core with
      cpu := { before with ip := after.ip, halted := after.halted } } } ∧
    (fault.isFatal → after.halted = true ∧ after.ip = before.ip) ∧
    (fault.isFatal = false → after.ip = before.ip + 1 ∧
      after.halted =
        if fault.isUnknown ∧ machine.core.config.unknownMnemonic = .halt then true
        else before.halted) := by
  obtain ⟨core, table, handlers⟩ := machine
  have settled : (core.dispatch handlers instruction).1 = core.settle core.cpu.ip fault :=
    Core.dispatch_of_fault_of_unlearnt unlearnt raised
  rw [dispatch]
  dsimp only
  rw [settled]
  cases fatal : fault.isFatal with
  | true =>
    rw [Core.settle_of_isFatal fatal]
    exact ⟨rfl, fun _ => ⟨rfl, rfl⟩, fun recoverable => by contradiction⟩
  | false =>
    rw [Core.settle_of_recoverable fatal]
    refine ⟨?_, fun fatal => by contradiction, fun _ => ?_⟩
    · split <;> rfl
    · split <;> exact ⟨rfl, rfl⟩

/-- An empty stack, a name that no directory may have and a mnemonic that nothing carries out. -/
theorem dispatch_fault_atomic_samples :
    let machine := Machine.ofConfig {}
    let popped := machine.dispatch (.pop .ax)
    let made := machine.dispatch (.makeDirectory "..")
    let missed := machine.dispatch (.other "nop" none)
    (popped.2 = some (.bounds .stackUnderflow) ∧ popped.1.core.cpu.halted = true ∧
      popped.1.core.cpu.ip = 0) ∧
    (made.2 = some (.files (.invalidName "..")) ∧ made.1.core.cpu.halted = false ∧
      made.1.core.cpu.ip = 1) ∧
    (missed.2 = some (.unknownMnemonic "nop") ∧ missed.1.core.cpu.halted = true ∧
      missed.1.core.cpu.ip = 1) := by
  intro machine popped made missed
  have empty : popped.2 = some (.bounds .stackUnderflow) := by decide
  have invalid : made.2 = some (.files (.invalidName "..")) := by decide
  have unknown : missed.2 = some (.unknownMnemonic "nop") := by decide
  obtain ⟨-, fatal, -⟩ := dispatch_fault_atomic machine (.pop .ax) rfl _ empty
  obtain ⟨-, -, passed⟩ := dispatch_fault_atomic machine (.makeDirectory "..") rfl _ invalid
  obtain ⟨-, -, stopped⟩ := dispatch_fault_atomic machine (.other "nop" none) rfl _ unknown
  exact ⟨⟨empty, fatal rfl⟩, ⟨invalid, (passed rfl).symm⟩, ⟨unknown, (stopped rfl).symm⟩⟩

/-! ## Handlers -/

/-- After a fault that is not fatal the pointer is past the instruction, whatever a handler did to
it. A fatal fault halts, but it leaves the pointer at the instruction only where the handler that
carried it out, if one did, has left it there. -/
theorem pointer_of_fault (machine : Machine) (instruction : Instruction) (fault : Fault)
    (raised : (machine.dispatch instruction).2 = some fault) :
    let fetched := machine.core.cpu.ip
    let after := (machine.dispatch instruction).1.core.cpu
    (fault.isFatal = false → after.ip = fetched + 1) ∧
    (fault.isFatal → after.halted = true ∧
      (after.ip = fetched ↔ ∀ name operand handler, instruction = .other name operand →
        machine.core.lookup machine.handlers name = some handler →
        (handler machine.core operand).1.cpu.ip = fetched)) := by
  obtain ⟨core, table, handlers⟩ := machine
  replace raised : (core.dispatch handlers instruction).2 = some fault := raised
  obtain ⟨failed, settled⟩ := Core.dispatch_of_fault raised
  rw [dispatch]
  dsimp only
  rw [settled]
  cases fatal : fault.isFatal with
  | false =>
    rw [Core.settle_of_recoverable fatal]
    refine ⟨fun _ => ?_, fun fatal => by contradiction⟩
    split <;> rfl
  | true =>
    rw [Core.settle_of_isFatal fatal]
    refine ⟨fun recoverable => by contradiction, fun _ => ⟨rfl, ?_⟩⟩
    show (core.apply handlers instruction).1.cpu.ip = core.cpu.ip ↔ _
    cases learnt : core.handler? handlers instruction with
    | none =>
      -- No handler carries the instruction out, so that it has left everything in place.
      rw [Core.apply_of_unlearnt learnt] at failed ⊢
      rw [Core.step_of_fault failed]
      refine iff_of_true rfl ?_
      rintro name operand handler rfl found
      cases learnt.symm.trans found
    | some handler =>
      obtain ⟨name, operand, rfl, found⟩ := Core.handler?_eq_some_iff.mp learnt
      rw [Core.apply, found]
      constructor
      · rintro unmoved _ _ _ ⟨⟩ other
        cases found.symm.trans other
        exact unmoved
      · intro unmoved
        exact unmoved name operand handler rfl found

/-- The fault of one handler is repaired, that of another is not. -/
theorem pointer_of_fault_samples :
    let machine := ((Machine.ofConfig {}).learn "boom" .crash).learn "no" .refuse
    let crashed := machine.dispatch (.other "boom" none)
    let refused := machine.dispatch (.other "no" none)
    (crashed.2 = some (.arithmetic .overflow) ∧ crashed.1.core.cpu.halted = true ∧
      crashed.1.core.cpu.ip ≠ 0) ∧
    (refused.2 = some (.unknownMnemonic "refused") ∧ refused.1.core.cpu.ip = 1) := by
  intro machine crashed refused
  have overflow : crashed.2 = some (.arithmetic .overflow) := by decide
  have unknown : refused.2 = some (.unknownMnemonic "refused") := by decide
  obtain ⟨halted, kept⟩ := (pointer_of_fault machine (.other "boom" none) _ overflow).2 rfl
  have passed := (pointer_of_fault machine (.other "no" none) _ unknown).1 rfl
  refine ⟨⟨overflow, halted, fun unmoved => ?_⟩, ⟨unknown, passed⟩⟩
  have unmoved := kept.mp unmoved "boom" none .crash rfl rfl
  contradiction

/-- A handler that moves on before it overflows has left the pointer seven instructions beyond the
one that raised the fatal fault. -/
theorem crash_moves_pointer :
    let machine := (Machine.ofConfig {}).learn "boom" .crash
    let crashed := machine.dispatch (.other "boom" none)
    crashed.2 = some (.arithmetic .overflow) ∧ Fault.isFatal (.arithmetic .overflow) ∧
      crashed.1.core.cpu.halted = true ∧ machine.core.cpu.ip = 0 ∧
      crashed.1.core.cpu.ip = 7 := by
  decide

end Machine

end RegisterMachine
