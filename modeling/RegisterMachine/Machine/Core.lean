import RegisterMachine.Config
import RegisterMachine.Files
import RegisterMachine.Instruction.Basic
import RegisterMachine.Log
import RegisterMachine.Memory

/-! # The core of a machine

The core is everything that an instruction can touch: the registers with the instruction pointer and
the halt flag, memory, the file tree, the lines printed so far, the log, and the register of the
mnemonics learnt beyond the built-in ones. Faults that lie in memory or arithmetic are fatal; the
others are reported and passed over.
-/

namespace RegisterMachine

inductive Flag where
  | unset
  | equal
  | greater
  | less
  deriving DecidableEq, Repr

/-- The registers, which a process carries from one slice to the next. -/
structure Registers where
  ax : Word := 0
  bx : Word := 0
  cx : Word := 0
  stackPointer : UInt64 := 0
  flag : Flag := .unset
  deriving DecidableEq, Repr

namespace Registers

def get (registers : Registers) : Register → Word
  | .ax => registers.ax
  | .bx => registers.bx
  | .cx => registers.cx

def set (registers : Registers) (register : Register) (value : Word) : Registers :=
  match register with
  | .ax => { registers with ax := value }
  | .bx => { registers with bx := value }
  | .cx => { registers with cx := value }

theorem get_set (registers : Registers) (register other : Register) (value : Word) :
    (registers.set register value).get other =
      if other = register then value else registers.get other := by
  cases register <;> cases other <;> rfl

@[simp] theorem stackPointer_set (registers : Registers) (register : Register) (value : Word) :
    (registers.set register value).stackPointer = registers.stackPointer := by
  cases register <;> rfl

@[simp] theorem flag_set (registers : Registers) (register : Register) (value : Word) :
    (registers.set register value).flag = registers.flag := by
  cases register <;> rfl

end Registers

/-- The processor. The instruction pointer counts instructions of the running program. -/
structure Cpu where
  registers : Registers := {}
  ip : Nat := 0
  halted : Bool := false
  deriving DecidableEq, Repr

/-- Arithmetic without an answer. -/
inductive ArithmeticFault where
  | divisionByZero
  | moduloByZero
  | overflow
  deriving DecidableEq, Repr

/-- What an instruction can raise. -/
inductive Fault where
  | bounds (fault : BoundsFault)
  | arithmetic (fault : ArithmeticFault)
  | files (error : Files.Error)
  | unknownMnemonic (name : String)
  | invalidOperand (mnemonic : String) (reason : String)
  deriving DecidableEq, Repr

def ArithmeticFault.message : ArithmeticFault → String
  | divisionByZero => "division by zero"
  | moduloByZero => "modulo by zero"
  | overflow => "integer overflow"

namespace Fault

def message : Fault → String
  | bounds fault => fault.message
  | arithmetic fault => fault.message
  | files error => error.message
  | unknownMnemonic name => s!"unknown operation: {name}"
  | invalidOperand mnemonic reason => s!"invalid operand for {mnemonic}: {reason}"

/-- Fatal faults halt whatever runs into them. -/
def isFatal : Fault → Bool
  | bounds _ | arithmetic _ => true
  | files _ | unknownMnemonic _ | invalidOperand .. => false

end Fault

/-- What an instruction can touch. A mnemonic is learnt by the place of its handler. -/
structure Core where
  cpu : Cpu := {}
  memory : Memory
  files : Files := {}
  output : Array String := #[]
  log : Log := {}
  config : Config := {}
  learnt : String → Option Nat := fun _ => none

namespace Core

def ofConfig (config : Config) : Core :=
  { memory := .blank config.memoryCells.toNat, config }

def get (core : Core) (register : Register) : Word := core.cpu.registers.get register

def mapRegisters (core : Core) (change : Registers → Registers) : Core :=
  { core with cpu := { core.cpu with registers := change core.cpu.registers } }

def set (core : Core) (register : Register) (value : Word) : Core :=
  core.mapRegisters fun registers => registers.set register value

def setStackPointer (core : Core) (stackPointer : UInt64) : Core :=
  core.mapRegisters fun registers => { registers with stackPointer }

def setIp (core : Core) (ip : Nat) : Core := { core with cpu := { core.cpu with ip } }

/-- Moves the instruction pointer to the next instruction. -/
def advance (core : Core) : Core := core.setIp (core.cpu.ip + 1)

def halt (core : Core) : Core := { core with cpu := { core.cpu with halted := true } }

def emit (core : Core) (line : String) : Core := { core with output := core.output.push line }

def emitAll (core : Core) (lines : List String) : Core := lines.foldl emit core

def note (core : Core) (level : Log.Level) (message : String) : Core :=
  { core with log := core.log.push level message }

/-- Reports a fault at an instruction in the log, with the process that raised it, if one did. -/
def report (core : Core) (pid : Option Nat) (ip : Nat) (fault : Fault) : Core :=
  core.note (if fault.isFatal then .error else .warning)
    (match pid with
      | some pid => s!"pid {pid} ip {ip}: {fault.message}"
      | none => s!"ip {ip}: {fault.message}")

/-- Learns a mnemonic by the place of its handler. What it was learnt by before is forgotten. -/
def learn (core : Core) (name : String) (place : Nat) : Core :=
  { core with learnt := fun called => if called = name then some place else core.learnt called }

end Core

end RegisterMachine
