import RegisterMachine.Machine.Process
import RegisterMachine.Machine.Step

/-! # Machines

A machine is a core, a table of processes and the handlers that the machine knows. The core's
processor runs programs in the foreground.
-/

namespace RegisterMachine

/-- A core with its processes and the handlers that it knows. -/
structure Machine where
  core : Core
  table : ProcessTable := {}
  handlers : Handlers := []

namespace Machine

def ofConfig (config : Config) : Machine := { core := .ofConfig config }

def mapCore (machine : Machine) (change : Core → Core) : Machine :=
  match machine with
  | ⟨core, table, handlers⟩ => ⟨change core, table, handlers⟩

/-- Lets a handler be known, which is not yet learnt for any mnemonic. -/
def know (machine : Machine) (handler : Handler) : Machine :=
  { machine with handlers := machine.handlers ++ [handler] }

/-- Teaches a mnemonic by the place of a known handler. A built-in mnemonic keeps its meaning. -/
def register (machine : Machine) (name : String) (place : Nat) : Machine :=
  machine.mapCore fun core => core.learn name place

/-- Teaches a mnemonic by a handler that has not been known before. -/
def learn (machine : Machine) (name : String) (handler : Handler) : Machine :=
  (machine.know handler).register name machine.handlers.length

/-- Carries out one instruction in the foreground. -/
def dispatch (machine : Machine) (instruction : Instruction) : Machine × Option Fault :=
  match machine with
  | ⟨core, table, handlers⟩ =>
    let (core, fault) := core.dispatch handlers instruction
    (⟨core, table, handlers⟩, fault)

def reset (machine : Machine) : Machine := machine.mapCore fun core => { core with cpu := {} }

def emit (machine : Machine) (line : String) : Machine :=
  machine.mapCore fun core => core.emit line

/-- The lines printed since the last time, and the machine without them. -/
def takeOutput (machine : Machine) : List String × Machine :=
  (machine.core.output.toList, machine.mapCore fun core => { core with output := #[] })

/-- The records of the log, and the machine without them. -/
def drainLog (machine : Machine) : List Log.Record × Machine :=
  (machine.core.log.drain.1, machine.mapCore fun core => { core with log := core.log.drain.2 })

end Machine

end RegisterMachine
