import RegisterMachine.Proofs.Machine.Effect

/-! # Cores that no instruction can tell apart

Two cores share their surroundings when memory, file tree and policy are the same; they agree when
the processors are the same as well. Whatever is carried out on cores that agree leaves cores that
agree, with the same fault, and prints the same lines, whatever was printed or logged before. An
instruction that changes neither memory nor files leaves the surroundings of everything else as they
were.
-/

namespace RegisterMachine

def Instruction.isReadOnly (instruction : Instruction) : Bool :=
  !instruction.changesMemory && !instruction.changesFiles

/-- A program of instructions that leave memory and the file tree as they are. -/
def ReadOnly (program : List Instruction) : Prop :=
  ∀ instruction ∈ program, instruction.isReadOnly

instance : DecidablePred ReadOnly := fun program =>
  inferInstanceAs (Decidable (∀ instruction ∈ program, instruction.isReadOnly))

namespace Core

/-- Cores with the same surroundings, the processor aside. -/
structure Shares (left right : Core) : Prop where
  memory : left.memory = right.memory
  files : left.files = right.files
  policy : left.config.unknownMnemonic = right.config.unknownMnemonic

/-- Cores with the same surroundings and processor that have printed the same lines since. -/
structure Agree (before before' : Array String) (left right : Core) : Prop
    extends Shares left right where
  cpu : left.cpu = right.cpu
  printed : ∃ lines, left.output = before ++ lines ∧ right.output = before' ++ lines

variable {left right core : Core} {before before' : Array String} {instruction : Instruction}

theorem Shares.refl (core : Core) : core.Shares core := ⟨rfl, rfl, rfl⟩

theorem Shares.symm (shares : left.Shares right) : right.Shares left :=
  ⟨shares.memory.symm, shares.files.symm, shares.policy.symm⟩

theorem Shares.trans {other : Core} (first : left.Shares right) (second : right.Shares other) :
    left.Shares other :=
  ⟨first.memory.trans second.memory, first.files.trans second.files,
    first.policy.trans second.policy⟩

/-- Cores that share their surroundings agree once they have the same processor. -/
theorem Shares.agree (shares : left.Shares right) (cpu : left.cpu = right.cpu) :
    Agree left.output right.output left right :=
  ⟨shares, cpu, #[], by simp⟩

/-- Cores that agree and had printed the same before have printed the same. -/
theorem Agree.output_eq (agree : Agree before before left right) : left.output = right.output := by
  obtain ⟨lines, printed, printed'⟩ := agree.printed
  rw [printed, printed']

/-! ## Effects -/

private theorem Agree.undergo (agree : Agree before before' left right) (effect : Effect) :
    Agree before before' (left.undergo effect).1 (right.undergo effect).1 ∧
      (left.undergo effect).2 = (right.undergo effect).2 := by
  obtain ⟨⟨memory, files, policy⟩, cpu, lines, printed, printed'⟩ := agree
  cases effect with
  | fail fault => exact ⟨⟨⟨memory, files, policy⟩, cpu, lines, printed, printed'⟩, rfl⟩
  | next change =>
    refine ⟨⟨⟨?_, ?_, ?_⟩, ?_, lines ++ change.lines.toArray, ?_, ?_⟩, rfl⟩
    · simp [Core.undergo, next, advance, setIp]
    · simp [Core.undergo, next, advance, setIp]
    · simpa [Core.undergo, next, advance, setIp] using policy
    · simp [Core.undergo, next, advance, setIp, cpu]
    · simp [Core.undergo, next, advance, setIp, printed]
    · simp [Core.undergo, next, advance, setIp, printed']
  | redirect ip =>
    exact ⟨⟨⟨memory, files, policy⟩, congrArg (fun cpu => { cpu with ip }) cpu, lines, printed,
      printed'⟩, rfl⟩
  | halt =>
    exact ⟨⟨⟨memory, files, policy⟩, congrArg (fun cpu => { cpu with halted := true }) cpu, lines,
      printed, printed'⟩, rfl⟩

private theorem config_undergo (core : Core) (effect : Effect) :
    (core.undergo effect).1.config = core.config := by
  cases effect with
  | next change => simp [undergo, next, advance, setIp]
  | _ => rfl

private theorem learnt_undergo (core : Core) (effect : Effect) :
    (core.undergo effect).1.learnt = core.learnt := by
  cases effect with
  | next change => simp [undergo, next, advance, setIp]
  | _ => rfl

/-- An effect that suits an instruction which changes neither memory nor files leaves both. -/
theorem shares_undergo {effect : Effect} (suits : effect.Suits core instruction)
    (readOnly : instruction.isReadOnly) : core.Shares (core.undergo effect).1 := by
  simp only [Instruction.isReadOnly, Bool.and_eq_true, Bool.not_eq_true'] at readOnly
  cases suits with
  | next change straight memory files =>
    refine ⟨?_, ?_, ?_⟩
    · simp [undergo, next, advance, setIp, memory readOnly.1]
    · simp [undergo, next, advance, setIp, files readOnly.2]
    · simp [undergo, next, advance, setIp]
  | _ => exact ⟨rfl, rfl, rfl⟩

/-- An effect that suits an instruction which cannot point elsewhere passes on to the next, unless
it fails or halts. -/
theorem passes_undergo {effect : Effect} (suits : effect.Suits core instruction)
    (straight : instruction.redirects = false) (success : (core.undergo effect).2 = none) :
    (core.undergo effect).1.cpu.halted ∨ (core.undergo effect).1.cpu.ip = core.cpu.ip + 1 := by
  cases suits with
  | fail fault => contradiction
  | next change => exact .inr (by simp [undergo, next, advance, setIp])
  | redirect ip turns =>
    rw [straight] at turns
    contradiction
  | halt => exact .inl rfl

/-! ## One instruction -/

/-- The one effect that an instruction has on a core and on every core that agrees with it. -/
theorem exists_effect (core : Core) (instruction : Instruction) :
    ∃ effect : Effect, effect.Suits core instruction ∧
      ∀ {before before' : Array String} {other : Core}, Agree before before' core other →
        other.step instruction = other.undergo effect := by
  obtain ⟨effect, suits, decided⟩ := core.decides_step instruction
  refine ⟨effect, suits, ?_⟩
  intro before before' other agree
  have same : other = core.recast other := by
    rw [recast, agree.cpu, agree.memory, agree.files]
  rw [same]
  exact decided other

private theorem Agree.step (agree : Agree before before' left right) (instruction : Instruction) :
    Agree before before' (left.step instruction).1 (right.step instruction).1 ∧
      (left.step instruction).2 = (right.step instruction).2 := by
  obtain ⟨effect, -, decided⟩ := left.exists_effect instruction
  rw [decided ((Shares.refl left).agree rfl), decided agree]
  exact agree.undergo effect

theorem exists_step_eq (core : Core) (instruction : Instruction) :
    ∃ effect : Effect, effect.Suits core instruction ∧
      core.step instruction = core.undergo effect := by
  obtain ⟨effect, suits, decided⟩ := core.exists_effect instruction
  exact ⟨effect, suits, decided ((Shares.refl core).agree rfl)⟩

theorem config_step (core : Core) (instruction : Instruction) :
    (core.step instruction).1.config = core.config := by
  obtain ⟨effect, -, same⟩ := core.exists_step_eq instruction
  rw [same, config_undergo]

private theorem learnt_step (core : Core) (instruction : Instruction) :
    (core.step instruction).1.learnt = core.learnt := by
  obtain ⟨effect, -, same⟩ := core.exists_step_eq instruction
  rw [same, learnt_undergo]

private theorem shares_step (core : Core) (readOnly : instruction.isReadOnly) :
    core.Shares (core.step instruction).1 := by
  obtain ⟨effect, suits, same⟩ := core.exists_step_eq instruction
  rw [same]
  exact shares_undergo suits readOnly

/-! ## Faults settled -/

/-- Settling a fault moves the pointer and may halt. -/
theorem settle_eq (fetched : Nat) (core : Core) (fault : Fault) :
    core.settle fetched fault = { core with
      cpu := { core.cpu with
        ip := if fault.isFatal then core.cpu.ip else fetched + 1
        halted := core.cpu.halted || halts core.config.unknownMnemonic fault } } := by
  unfold settle
  cases fault.isFatal <;> cases halts core.config.unknownMnemonic fault <;> simp [setIp, halt]

/-- A fatal fault halts under every policy. -/
theorem halts_of_isFatal (policy : Config.UnknownPolicy) {fault : Fault} (fatal : fault.isFatal) :
    halts policy fault = true := by
  cases fault <;> simp_all [halts, Fault.isFatal]

/-- A note in the log is no difference. -/
theorem Agree.note (agree : Agree before before' left right) (level level' : Log.Level)
    (message message' : String) :
    Agree before before' (left.note level message) (right.note level' message') :=
  ⟨⟨agree.memory, agree.files, agree.policy⟩, agree.cpu, agree.printed⟩

private theorem Agree.settle (agree : Agree before before' left right) (fetched : Nat)
    (fault : Fault) :
    Agree before before' (left.settle fetched fault) (right.settle fetched fault) := by
  rw [settle_eq, settle_eq]
  refine ⟨⟨agree.memory, agree.files, agree.policy⟩, ?_, agree.printed⟩
  simp only [agree.cpu, agree.policy]

/-! ## Dispatch without learnt mnemonics -/

theorem dispatch_nil (core : Core) (instruction : Instruction) :
    core.dispatch [] instruction =
      match core.step instruction with
      | (stepped, none) => (stepped, none)
      | (stepped, some fault) => (stepped.settle core.cpu.ip fault, some fault) := by
  have applied : core.apply [] instruction = core.step instruction := by
    cases instruction with
    | other name operand => rw [apply, lookup_nil]
    | _ => rfl
  cases outcome : core.step instruction with
  | mk stepped fault =>
    cases fault with
    | none => simp only [dispatch, applied, outcome]
    | some fault => simp only [dispatch, applied, outcome]

theorem dispatch_of_success (success : (core.step instruction).2 = none) :
    core.dispatch [] instruction = ((core.step instruction).1, none) := by
  rw [dispatch_nil, ← success]
  cases outcome : core.step instruction with
  | mk stepped fault =>
    rw [outcome] at success
    cases success
    rfl

theorem dispatch_of_failure {fault : Fault} (failure : (core.step instruction).2 = some fault) :
    core.dispatch [] instruction =
      ((core.step instruction).1.settle core.cpu.ip fault, some fault) := by
  rw [dispatch_nil]
  cases outcome : core.step instruction with
  | mk stepped raised =>
    rw [outcome] at failure
    cases failure
    rfl

theorem Agree.dispatch (agree : Agree before before' left right) (instruction : Instruction) :
    Agree before before' (left.dispatch [] instruction).1 (right.dispatch [] instruction).1 ∧
      (left.dispatch [] instruction).2 = (right.dispatch [] instruction).2 := by
  obtain ⟨stepped, same⟩ := agree.step instruction
  cases raised : (left.step instruction).2 with
  | none =>
    rw [dispatch_of_success raised, dispatch_of_success (same ▸ raised)]
    exact ⟨stepped, rfl⟩
  | some fault =>
    rw [dispatch_of_failure raised, dispatch_of_failure (same ▸ raised), agree.cpu]
    exact ⟨stepped.settle _ fault, rfl⟩

/-- A dispatch leaves what the instruction has left, but for the pointer and the halt flag. -/
theorem exists_dispatch_eq (core : Core) (instruction : Instruction) :
    ∃ ip halted, (core.dispatch [] instruction).1 = { (core.step instruction).1 with
      cpu := { (core.step instruction).1.cpu with ip, halted } } := by
  cases raised : (core.step instruction).2 with
  | none =>
    rw [dispatch_of_success raised]
    exact ⟨_, _, rfl⟩
  | some fault =>
    rw [dispatch_of_failure raised, settle_eq]
    exact ⟨_, _, rfl⟩

theorem registers_dispatch (core : Core) (instruction : Instruction) :
    (core.dispatch [] instruction).1.cpu.registers =
      (core.step instruction).1.cpu.registers := by
  obtain ⟨ip, halted, same⟩ := core.exists_dispatch_eq instruction
  rw [same]

theorem memory_dispatch (core : Core) (instruction : Instruction) :
    (core.dispatch [] instruction).1.memory = (core.step instruction).1.memory := by
  obtain ⟨ip, halted, same⟩ := core.exists_dispatch_eq instruction
  rw [same]

theorem config_dispatch (core : Core) (instruction : Instruction) :
    (core.dispatch [] instruction).1.config = core.config := by
  obtain ⟨ip, halted, same⟩ := core.exists_dispatch_eq instruction
  rw [same]
  exact core.config_step instruction

theorem learnt_dispatch (core : Core) (instruction : Instruction) :
    (core.dispatch [] instruction).1.learnt = core.learnt := by
  obtain ⟨ip, halted, same⟩ := core.exists_dispatch_eq instruction
  rw [same]
  exact core.learnt_step instruction

/-- An instruction adds lines behind those printed before. -/
theorem exists_output_dispatch (core : Core) (instruction : Instruction) :
    ∃ lines, (core.dispatch [] instruction).1.output = core.output ++ lines := by
  obtain ⟨lines, printed, -⟩ := (((Shares.refl core).agree rfl).dispatch instruction).1.printed
  exact ⟨lines, printed⟩

theorem shares_dispatch (core : Core) (readOnly : instruction.isReadOnly) :
    core.Shares (core.dispatch [] instruction).1 := by
  obtain ⟨ip, halted, same⟩ := core.exists_dispatch_eq instruction
  rw [same]
  have shares := core.shares_step readOnly
  exact ⟨shares.memory, shares.files, shares.policy⟩

/-- An instruction that cannot point elsewhere leaves the processor halted or at the next one,
whether it takes effect or fails. -/
theorem passes_dispatch (core : Core) (straight : instruction.redirects = false) :
    (core.dispatch [] instruction).1.cpu.halted ∨
      (core.dispatch [] instruction).1.cpu.ip = core.cpu.ip + 1 := by
  obtain ⟨effect, suits, same⟩ := core.exists_step_eq instruction
  cases raised : (core.step instruction).2 with
  | none =>
    rw [dispatch_of_success raised, same]
    exact passes_undergo suits straight (same ▸ raised)
  | some fault =>
    rw [dispatch_of_failure raised, settle_eq]
    cases fatal : fault.isFatal with
    | true => exact .inl (by rw [halts_of_isFatal _ fatal, Bool.or_true])
    | false => exact .inr rfl

end Core

end RegisterMachine
