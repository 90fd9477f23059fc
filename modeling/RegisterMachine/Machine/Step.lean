import RegisterMachine.Machine.Arithmetic

/-! # One instruction

A built-in instruction either takes effect or raises a fault and leaves the core as it is. Any other
mnemonic is carried out by the handler learnt for it, and is a fault without one. After a fatal
fault the core halts and the instruction pointer stays where the instruction left it; after any
other it points to the instruction that follows.
-/

namespace RegisterMachine

namespace Core

/-- The core after an instruction, with the fault that it raised, if it raised one. -/
abbrev Outcome := Core × Option Fault

/-- An instruction that takes effect and passes on to the next. -/
def next (core : Core) : Outcome := (core.advance, none)

/-- An instruction that takes effect and stays, or has moved the instruction pointer itself. -/
def stay (core : Core) : Outcome := (core, none)

def fail (core : Core) (fault : Fault) : Outcome := (core, some fault)

def lastIp : Nat := UInt64.size - 1

/-- Loads a value into a register; a negative one is no stack pointer. -/
def load (core : Core) (target : Target) (value : Word) : Outcome :=
  match target with
  | .register register => (core.set register value).next
  | .stackPointer =>
    match value.index? with
    | some index => (core.setStackPointer (UInt64.ofNat index)).next
    | none => core.fail (.invalidOperand "copy2sp" s!"stack pointer {value} out of range")

/-- Replaces a register by the result of an operator on it. -/
def compute (core : Core) (operator : Operator) (register : Register) (value : Word) : Outcome :=
  match operator.apply (core.get register) value with
  | .ok result => (core.set register result).next
  | .error fault => core.fail (.arithmetic fault)

def increment (core : Core) : Target → Outcome
  | .register register => core.compute .add register 1
  | .stackPointer =>
    let stackPointer := core.cpu.registers.stackPointer
    if stackPointer.toNat + 1 < UInt64.size then (core.setStackPointer (stackPointer + 1)).next
    else core.fail (.bounds (.stackOverflow stackPointer core.memory.size))

def decrement (core : Core) : Target → Outcome
  | .register register => core.compute .subtract register 1
  | .stackPointer =>
    let stackPointer := core.cpu.registers.stackPointer
    if stackPointer = 0 then core.fail (.bounds .stackUnderflow)
    else (core.setStackPointer (stackPointer - 1)).next

def storeCell (core : Core) (address : Word) (register : Register) : Outcome :=
  match core.memory.index? address with
  | some index =>
    let value := core.get register
    { core with memory := core.memory.set index value }.next
  | none => core.fail (.bounds (.write address core.memory.size))

/-- Does something with the value of a cell. -/
def withCell (core : Core) (address : Word) (use : Word → Outcome) : Outcome :=
  match core.memory.read address with
  | .ok value => use value
  | .error fault => core.fail (.bounds fault)

def push (core : Core) (register : Register) : Outcome :=
  let stackPointer := core.cpu.registers.stackPointer
  if stackPointer.toNat < core.memory.size then
    let value := core.get register
    let core := { core with memory := core.memory.set stackPointer.toNat value }
    (core.setStackPointer (stackPointer + 1)).next
  else core.fail (.bounds (.stackOverflow stackPointer core.memory.size))

/-- Takes the top of the stack into a register. -/
def pop (core : Core) (register : Register) : Outcome :=
  let stackPointer := core.cpu.registers.stackPointer
  if stackPointer = 0 then core.fail (.bounds .stackUnderflow)
  else
    match core.memory.read (stackPointer - 1).toInt64 with
    | .ok value => ((core.setStackPointer (stackPointer - 1)).set register value).next
    | .error fault => core.fail (.bounds fault)

def peek (core : Core) : Outcome :=
  let stackPointer := core.cpu.registers.stackPointer
  if stackPointer = 0 then (core.emit "Stack is empty").next
  else
    match core.memory.read (stackPointer - 1).toInt64 with
    | .ok value => (core.emit s!"Stack top: {value}").next
    | .error fault => core.fail (.bounds fault)

/-- The lines that show the stack, as far as it lies in memory. -/
def stackLines (core : Core) : List String :=
  (core.memory.cells.toList.take core.cpu.registers.stackPointer.toNat).zipIdx.map
    fun (value, index) => s!"Stack[{index}]: {value}"

def printStack (core : Core) : Outcome :=
  let stackPointer := core.cpu.registers.stackPointer
  let lines := core.stackLines
  ((core.emit s!"SP points to: {stackPointer}").emitAll lines).next

/-- Takes over a changed file tree. -/
def withFiles (core : Core) : Except Files.Error Files → Outcome
  | .ok files => { core with files }.next
  | .error error => core.fail (.files error)

/-- Prints the working path and the entries of the working directory. -/
def listDirectory (core : Core) : Outcome :=
  match core.files.list with
  | .ok items =>
    let path := core.files.pathText
    ((core.emit path).emitAll (items.map Files.Item.text)).next
  | .error error => core.fail (.files error)

def readFile (core : Core) (name : String) : Outcome :=
  match core.files.read name with
  | .ok content => (core.emit s!"{name}: {content}").next
  | .error error => core.fail (.files error)

/-- The signed value that printing shows. -/
def printed (core : Core) : Target → Word
  | .register register => core.get register
  | .stackPointer => core.cpu.registers.stackPointer.toInt64

/-- Carries out a built-in instruction. A mnemonic outside the table is unknown here. -/
def step (core : Core) : Instruction → Outcome
  | .load target value => core.load target value
  | .setIp address | .jump address => (core.setIp address).stay
  | .copy source destination =>
    let value := core.get source
    (core.set destination value).next
  | .swap left right =>
    let first := core.get left
    let second := core.get right
    ((core.set left second).set right first).next
  | .arithmetic operator register value => core.compute operator register value
  | .increment target => core.increment target
  | .decrement target => core.decrement target
  | .compare register value =>
    let flag := Flag.ofWords (core.get register) value
    (core.mapRegisters fun registers => { registers with flag }).next
  | .jumpIf condition address =>
    if condition.holds core.cpu.registers.flag then (core.setIp address).stay else core.stay
  | .halt => (core.halt.note .info "cpu halted").stay
  | .skip distance =>
    let ip := core.cpu.ip
    (core.setIp (min (ip + distance) lastIp)).stay
  | .storeCell address register => core.storeCell address register
  | .loadCell address register => core.withCell address fun value => (core.set register value).next
  | .printCell address =>
    core.withCell address fun value => (core.emit s!"Memory[{address}] = {value}").next
  | .clearMemory =>
    let core := { core with memory := core.memory.clear }
    (core.note .info "memory cleared").next
  | .push register => core.push register
  | .pop register => core.pop register
  | .peek => core.peek
  | .printStack => core.printStack
  | .makeDirectory name => core.withFiles (core.files.makeDirectory name)
  | .changeDirectory name => core.withFiles (core.files.changeDirectory name)
  | .listDirectory => core.listDirectory
  | .writeFile name content => core.withFiles (core.files.write name content)
  | .readFile name => core.readFile name
  | .remove name => core.withFiles (core.files.remove name)
  | .print target =>
    let value := core.printed target
    (core.emit s!"{target.label}: {value}").next
  | .banner => (core.emit "Welcome to simos").next
  | .firmwareInterrupt => (core.note .info "BIOS interrupt triggered").next
  | .disableInterrupts => (core.note .info "interrupts disabled").next
  | .other name _ => core.fail (.unknownMnemonic name)

end Core

/-- How a learnt mnemonic acts on the core. A handler moves the instruction pointer itself. It may
do whatever can be done to a core: dispatch and run instructions of its own, with the help of
handlers that it knows, take what was printed, and learn mnemonics. Processes are out of its
reach. -/
abbrev Handler := Core → Option Operand → Core.Outcome

/-- The handlers that a machine knows, each at its place. -/
abbrev Handlers := List Handler

namespace Core

def lookup (handlers : Handlers) (core : Core) (name : String) : Option Handler :=
  (core.learnt name).bind fun place => handlers[place]?

@[simp] theorem lookup_nil (core : Core) (name : String) : core.lookup [] name = none := by
  simp [lookup]

/-- Carries out an instruction, with the help of the handlers for mnemonics outside the table. -/
def apply (handlers : Handlers) (core : Core) (instruction : Instruction) : Outcome :=
  match instruction with
  | .other name operand =>
    match core.lookup handlers name with
    | some handler => handler core operand
    | none => core.step instruction
  | _ => core.step instruction

def halts (policy : Config.UnknownPolicy) (fault : Fault) : Bool :=
  match fault with
  | .unknownMnemonic _ => policy == .halt
  | _ => fault.isFatal

/-- What a fault does to the core, given the instruction pointer before the instruction. -/
def settle (fetched : Nat) (core : Core) (fault : Fault) : Core :=
  let stops := halts core.config.unknownMnemonic fault
  let core := if fault.isFatal then core else core.setIp (fetched + 1)
  if stops then core.halt else core

/-- Carries out an instruction and settles the fault that it raises, if it raises one. -/
def dispatch (handlers : Handlers) (core : Core) (instruction : Instruction) : Outcome :=
  let fetched := core.cpu.ip
  match core.apply handlers instruction with
  | (core, none) => (core, none)
  | (core, some fault) => (core.settle fetched fault, some fault)

end Core

end RegisterMachine
