import RegisterMachine.Machine.Step

/-! # What one instruction can do

A built-in instruction fails and leaves the core as it is, or changes registers, memory or files,
prints lines and passes on to the next, or points the processor elsewhere, or halts it. Which of
these it does, and with what, is decided by the processor, memory and the file tree alone: what was
printed and logged before, the configuration and what has been learnt have no say in it.
-/

namespace RegisterMachine

namespace Instruction

def redirects : Instruction → Bool
  | setIp _ | jump _ | jumpIf .. | skip _ => true
  | _ => false

def changesMemory : Instruction → Bool
  | storeCell .. | clearMemory | push _ => true
  | _ => false

def changesFiles : Instruction → Bool
  | makeDirectory _ | changeDirectory _ | writeFile .. | remove _ => true
  | _ => false

end Instruction

/-- What an instruction leaves behind that passes on to the next. -/
structure Change where
  registers : Registers
  memory : Memory
  files : Files
  lines : List String := []
  note : Option String := none

/-- What an instruction does. -/
inductive Effect where
  | fail (fault : Fault)
  | next (change : Change)
  | redirect (ip : Nat)
  | halt

/-- What each effect takes of the instruction that has it. -/
inductive Effect.Suits (core : Core) (instruction : Instruction) : Effect → Prop
  | fail (fault : Fault) : Suits core instruction (fail fault)
  | next (change : Change) (straight : instruction.redirects = false)
      (memory : instruction.changesMemory = false → change.memory = core.memory)
      (files : instruction.changesFiles = false → change.files = core.files) :
      Suits core instruction (next change)
  | redirect (ip : Nat) (turns : instruction.redirects = true) :
      Suits core instruction (redirect ip)
  | halt (halts : instruction = .halt) : Suits core instruction halt

namespace Core

def alter (core : Core) (change : Change) : Core :=
  let core := { core with
    cpu := { core.cpu with registers := change.registers }
    memory := change.memory
    files := change.files }
  match change.note with
  | some message => (core.emitAll change.lines).note .info message
  | none => core.emitAll change.lines

def undergo (core : Core) : Effect → Outcome
  | .fail fault => core.fail fault
  | .next change => (core.alter change).next
  | .redirect ip => (core.setIp ip).stay
  | .halt => (core.halt.note .info "cpu halted").stay

/-- Printing lines adds them to the output and changes nothing else. -/
theorem emitAll_eq (core : Core) (lines : List String) :
    core.emitAll lines = { core with output := core.output ++ lines.toArray } := by
  rw [emitAll]
  induction lines generalizing core with
  | nil => simp
  | cons line others ih =>
    rw [List.foldl_cons, ih]
    simp [emit]

section Alter

variable (core : Core) (change : Change)

@[simp] theorem cpu_alter :
    (core.alter change).cpu = { core.cpu with registers := change.registers } := by
  unfold alter
  split <;> simp [emitAll_eq, note]

@[simp] theorem memory_alter : (core.alter change).memory = change.memory := by
  unfold alter
  split <;> simp [emitAll_eq, note]

@[simp] theorem files_alter : (core.alter change).files = change.files := by
  unfold alter
  split <;> simp [emitAll_eq, note]

@[simp] theorem output_alter :
    (core.alter change).output = core.output ++ change.lines.toArray := by
  unfold alter
  split <;> simp [emitAll_eq, note]

@[simp] theorem config_alter : (core.alter change).config = core.config := by
  unfold alter
  split <;> simp [emitAll_eq, note]

@[simp] theorem learnt_alter : (core.alter change).learnt = core.learnt := by
  unfold alter
  split <;> simp [emitAll_eq, note]

end Alter

/-- The core with the past, the configuration and the learnt mnemonics of another. -/
def recast (core past : Core) : Core :=
  { past with cpu := core.cpu, memory := core.memory, files := core.files }

section Recast

variable (core past : Core)

@[simp] theorem cpu_recast : (core.recast past).cpu = core.cpu := rfl

@[simp] theorem memory_recast : (core.recast past).memory = core.memory := rfl

@[simp] theorem files_recast : (core.recast past).files = core.files := rfl

@[simp] theorem get_recast (register : Register) :
    (core.recast past).get register = core.get register := rfl

end Recast

/-- One effect that suits the instruction is what an action does, whatever was printed, logged and
learnt before and however the machine is set up. -/
def Decides (core : Core) (instruction : Instruction) (action : Core → Outcome) : Prop :=
  ∃ effect : Effect, effect.Suits core instruction ∧
    ∀ past,
      action (core.recast past) = (core.recast past).undergo effect

variable {core : Core} {instruction : Instruction}

/-! ## Families of instructions -/

private theorem Decides.fail {action : Core → Outcome} (fault : Fault)
    (fails : ∀ past,
      action (core.recast past) = (core.recast past).fail fault) :
    Decides core instruction action :=
  ⟨.fail fault, .fail fault, fails⟩

private theorem Decides.next {action : Core → Outcome} (change : Change)
    (straight : instruction.redirects = false)
    (memory : instruction.changesMemory = false → change.memory = core.memory)
    (files : instruction.changesFiles = false → change.files = core.files)
    (passes : ∀ past,
      action (core.recast past) =
        ((core.recast past).alter change).next) :
    Decides core instruction action :=
  ⟨.next change, .next change straight memory files, passes⟩

private theorem Decides.redirect {action : Core → Outcome} (ip : Nat)
    (turns : instruction.redirects = true)
    (points : ∀ past,
      action (core.recast past) = ((core.recast past).setIp ip).stay) :
    Decides core instruction action :=
  ⟨.redirect ip, .redirect ip turns, points⟩

/-- An action that only sets registers and prints lines. -/
theorem Decides.local {action : Core → Outcome} (straight : instruction.redirects = false)
    (registers : Registers) (lines : List String)
    (passes : ∀ past,
      action (core.recast past) = ((core.recast past).alter
        { registers, memory := core.memory, files := core.files, lines }).next) :
    Decides core instruction action :=
  .next _ straight (fun _ => rfl) (fun _ => rfl) passes

private theorem decides_load (target : Target) (value : Word)
    (straight : instruction.redirects = false) :
    core.Decides instruction fun core => core.load target value := by
  cases target with
  | register register =>
    exact .local straight (core.cpu.registers.set register value) [] fun _ => rfl
  | stackPointer =>
    cases negative : value.index? with
    | none =>
      refine .fail (.invalidOperand "copy2sp" s!"stack pointer {value} out of range") ?_
      intro past
      rw [load, negative]
    | some index =>
      refine .local straight { core.cpu.registers with stackPointer := UInt64.ofNat index } [] ?_
      intro past
      rw [load, negative]
      rfl

private theorem decides_compute (operator : Operator) (register : Register) (value : Word)
    (straight : instruction.redirects = false) :
    core.Decides instruction fun core => core.compute operator register value := by
  cases computed : operator.apply (core.get register) value with
  | error fault =>
    refine .fail (.arithmetic fault) ?_
    intro past
    rw [compute, get_recast, computed]
  | ok result =>
    refine .local straight (core.cpu.registers.set register result) [] ?_
    intro past
    rw [compute, get_recast, computed]
    rfl

private theorem decides_increment (target : Target) (straight : instruction.redirects = false) :
    core.Decides instruction fun core => core.increment target := by
  cases target with
  | register register => exact decides_compute .add register 1 straight
  | stackPointer =>
    by_cases room : core.cpu.registers.stackPointer.toNat + 1 < UInt64.size
    · refine .local straight { core.cpu.registers with
        stackPointer := core.cpu.registers.stackPointer + 1 } [] ?_
      intro past
      exact if_pos room
    · refine .fail (.bounds (.stackOverflow core.cpu.registers.stackPointer core.memory.size)) ?_
      intro past
      exact if_neg room

private theorem decides_decrement (target : Target) (straight : instruction.redirects = false) :
    core.Decides instruction fun core => core.decrement target := by
  cases target with
  | register register => exact decides_compute .subtract register 1 straight
  | stackPointer =>
    by_cases empty : core.cpu.registers.stackPointer = 0
    · refine .fail (.bounds .stackUnderflow) ?_
      intro past
      exact if_pos empty
    · refine .local straight { core.cpu.registers with
        stackPointer := core.cpu.registers.stackPointer - 1 } [] ?_
      intro past
      exact if_neg empty

private theorem decides_storeCell (address : Word) (register : Register) :
    core.Decides (.storeCell address register) fun core => core.storeCell address register := by
  cases cell : core.memory.index? address with
  | none =>
    refine .fail (.bounds (.write address core.memory.size)) ?_
    intro past
    rw [storeCell, memory_recast, cell]
  | some index =>
    let stored : Change := {
      registers := core.cpu.registers
      memory := core.memory.set index (core.get register)
      files := core.files }
    refine .next stored rfl (fun kept => by contradiction) (fun _ => rfl) ?_
    intro past
    rw [storeCell, memory_recast, cell]
    rfl

/-- What a cell is used for is decided by its value where it is decided for every value. -/
theorem decides_withCell (address : Word) {use : Word → Core → Outcome}
    (decides : ∀ value, core.Decides instruction (use value)) :
    core.Decides instruction fun core => core.withCell address fun value => use value core := by
  cases cell : core.memory.read address with
  | error fault =>
    refine .fail (.bounds fault) ?_
    intro past
    rw [withCell, memory_recast, cell]
  | ok value =>
    obtain ⟨effect, suits, decided⟩ := decides value
    refine ⟨effect, suits, ?_⟩
    intro past
    show (core.recast past).withCell address _ = _
    rw [withCell, memory_recast, cell]
    exact decided past

private theorem decides_push (register : Register) :
    core.Decides (.push register) fun core => core.push register := by
  by_cases room : core.cpu.registers.stackPointer.toNat < core.memory.size
  · let pushed : Change := {
      registers := { core.cpu.registers with
        stackPointer := core.cpu.registers.stackPointer + 1 }
      memory := core.memory.set core.cpu.registers.stackPointer.toNat (core.get register)
      files := core.files }
    refine .next pushed rfl (fun kept => by contradiction) (fun _ => rfl) ?_
    intro past
    exact if_pos room
  · refine .fail (.bounds (.stackOverflow core.cpu.registers.stackPointer core.memory.size)) ?_
    intro past
    exact if_neg room

private theorem decides_pop (register : Register) :
    core.Decides (.pop register) fun core => core.pop register := by
  by_cases empty : core.cpu.registers.stackPointer = 0
  · refine .fail (.bounds .stackUnderflow) ?_
    intro past
    exact if_pos empty
  cases top : core.memory.read (core.cpu.registers.stackPointer - 1).toInt64 with
  | error fault =>
    refine .fail (.bounds fault) ?_
    intro past
    simp only [pop, cpu_recast, memory_recast, empty, ↓reduceIte, top]
  | ok value =>
    refine .local rfl ({ core.cpu.registers with
      stackPointer := core.cpu.registers.stackPointer - 1 }.set register value) [] ?_
    intro past
    simp only [pop, cpu_recast, memory_recast, empty, ↓reduceIte, top]
    rfl

private theorem decides_peek : core.Decides .peek peek := by
  by_cases empty : core.cpu.registers.stackPointer = 0
  · refine .local rfl core.cpu.registers ["Stack is empty"] ?_
    intro past
    exact if_pos empty
  cases top : core.memory.read (core.cpu.registers.stackPointer - 1).toInt64 with
  | error fault =>
    refine .fail (.bounds fault) ?_
    intro past
    simp only [peek, cpu_recast, memory_recast, empty, ↓reduceIte, top]
  | ok value =>
    refine .local rfl core.cpu.registers [s!"Stack top: {value}"] ?_
    intro past
    simp only [peek, cpu_recast, memory_recast, empty, ↓reduceIte, top]
    rfl

/-- Taking over a file tree that the present one alone decides. -/
theorem decides_withFiles (operation : Files → Except Files.Error Files)
    (straight : instruction.redirects = false) (changes : instruction.changesFiles = true) :
    core.Decides instruction fun core => core.withFiles (operation core.files) := by
  cases done : operation core.files with
  | error error =>
    refine .fail (.files error) ?_
    intro past
    rw [files_recast, done, withFiles]
  | ok files =>
    let changed : Change := { registers := core.cpu.registers, memory := core.memory, files }
    refine .next changed straight (fun _ => rfl) (fun kept => ?_) ?_
    · rw [changes] at kept
      contradiction
    · intro past
      rw [files_recast, done, withFiles]
      rfl

private theorem decides_listDirectory : core.Decides .listDirectory listDirectory := by
  cases listed : core.files.list with
  | error error =>
    refine .fail (.files error) ?_
    intro past
    rw [listDirectory, files_recast, listed]
  | ok items =>
    refine .local rfl core.cpu.registers
      (core.files.pathText :: items.map Files.Item.text) ?_
    intro past
    rw [listDirectory, files_recast, listed]
    rfl

private theorem decides_readFile (name : String) :
    core.Decides (.readFile name) fun core => core.readFile name := by
  cases found : core.files.read name with
  | error error =>
    refine .fail (.files error) ?_
    intro past
    rw [readFile, files_recast, found]
  | ok content =>
    refine .local rfl core.cpu.registers [s!"{name}: {content}"] ?_
    intro past
    rw [readFile, files_recast, found]
    rfl

private theorem decides_jumpIf (condition : Condition) (address : Nat) :
    core.Decides (.jumpIf condition address) fun core => core.step (.jumpIf condition address) := by
  by_cases taken : condition.holds core.cpu.registers.flag
  · exact .redirect address rfl fun _ => if_pos taken
  · exact .redirect core.cpu.ip rfl fun _ => if_neg taken

/-! ## Every instruction -/

/-- A note in the log and nothing else. -/
theorem decides_note (message : String) (straight : instruction.redirects = false) :
    core.Decides instruction fun core => (core.note .info message).next := by
  let noted : Change := {
    registers := core.cpu.registers
    memory := core.memory
    files := core.files
    note := some message }
  exact .next noted straight (fun _ => rfl) (fun _ => rfl) fun _ => rfl

theorem decides_step (core : Core) (instruction : Instruction) :
    core.Decides instruction fun core => core.step instruction := by
  cases instruction with
  | load target value => exact decides_load target value rfl
  | setIp address => exact .redirect address rfl fun _ => rfl
  | copy source destination =>
    exact .local rfl (core.cpu.registers.set destination (core.get source)) [] fun _ => rfl
  | swap left right =>
    exact .local rfl ((core.cpu.registers.set left (core.get right)).set right (core.get left)) []
      fun _ => rfl
  | arithmetic operator register value => exact decides_compute operator register value rfl
  | increment target => exact decides_increment target rfl
  | decrement target => exact decides_decrement target rfl
  | compare register value =>
    exact .local rfl { core.cpu.registers with flag := Flag.ofWords (core.get register) value } []
      fun _ => rfl
  | jumpIf condition address => exact decides_jumpIf condition address
  | jump address => exact .redirect address rfl fun _ => rfl
  | halt => exact ⟨.halt, .halt rfl, fun _ => rfl⟩
  | skip distance =>
    exact .redirect (min (core.cpu.ip + distance) lastIp) rfl fun _ => rfl
  | storeCell address register => exact decides_storeCell address register
  | loadCell address register =>
    exact decides_withCell address fun value =>
      .local rfl (core.cpu.registers.set register value) [] fun _ => rfl
  | printCell address =>
    exact decides_withCell address fun value =>
      .local rfl core.cpu.registers [s!"Memory[{address}] = {value}"] fun _ => rfl
  | clearMemory =>
    let cleared : Change := {
      registers := core.cpu.registers
      memory := core.memory.clear
      files := core.files
      note := some "memory cleared" }
    exact .next cleared rfl (fun kept => by contradiction) (fun _ => rfl) fun _ => rfl
  | push register => exact decides_push register
  | pop register => exact decides_pop register
  | peek => exact decides_peek
  | printStack =>
    exact .local rfl core.cpu.registers
      (s!"SP points to: {core.cpu.registers.stackPointer}" :: core.stackLines) fun _ => rfl
  | makeDirectory name =>
    exact decides_withFiles (fun files => files.makeDirectory name) rfl rfl
  | changeDirectory name =>
    exact decides_withFiles (fun files => files.changeDirectory name) rfl rfl
  | listDirectory => exact decides_listDirectory
  | writeFile name content =>
    exact decides_withFiles (fun files => files.write name content) rfl rfl
  | readFile name => exact decides_readFile name
  | remove name =>
    exact decides_withFiles (fun files => files.remove name) rfl rfl
  | print target =>
    cases target with
    | register register =>
      exact .local rfl core.cpu.registers
        [s!"{(Target.register register).label}: {core.get register}"] fun _ => rfl
    | stackPointer =>
      exact .local rfl core.cpu.registers
        [s!"{Target.stackPointer.label}: {core.cpu.registers.stackPointer.toInt64}"]
        fun _ => rfl
  | banner => exact .local rfl core.cpu.registers ["Welcome to simos"] fun _ => rfl
  | firmwareInterrupt => exact decides_note "BIOS interrupt triggered" rfl
  | disableInterrupts => exact decides_note "interrupts disabled" rfl
  | other name operand => exact .fail (.unknownMnemonic name) fun _ => rfl

end Core

end RegisterMachine
