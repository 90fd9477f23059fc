import RegisterMachine.Machine.Basic

/-! # Runs in the foreground

A run starts at the first instruction and follows the instruction pointer until the core is halted,
the pointer leaves the program or the fuel is spent. Faults are collected and reported in the log.
Without a fuel limit a run is bounded by what a 64-bit count of its steps can hold, or by the length
of its program where that is more.
-/

namespace RegisterMachine

inductive RunOutcome where
  | completed
  | halted
  | outOfFuel
  deriving DecidableEq, Repr

structure RunReport where
  outcome : RunOutcome
  steps : Nat
  faults : Array Fault
  deriving DecidableEq, Repr

namespace Core

/-- Runs on with the given fuel, after the given steps and faults. -/
def runFrom (handlers : Handlers) (program : Array Instruction) (fuel steps : Nat)
    (faults : Array Fault) (core : Core) : Core × RunReport :=
  if core.cpu.halted then (core, ⟨.halted, steps, faults⟩)
  else
    match program[core.cpu.ip]? with
    | none => (core, ⟨.completed, steps, faults⟩)
    | some instruction =>
      let fetched := core.cpu.ip
      match fuel with
      | 0 =>
        (core.note .warning s!"out of fuel after {steps} instructions at ip={fetched}",
          ⟨.outOfFuel, steps, faults⟩)
      | fuel + 1 =>
        match core.dispatch handlers instruction with
        | (core, none) => runFrom handlers program fuel (steps + 1) faults core
        | (core, some fault) =>
          runFrom handlers program fuel (steps + 1) (faults.push fault)
            (core.report none fetched fault)

/-- The most steps that a run may take. -/
def allowance (config : Config) (program : List Instruction) : Nat :=
  match config.fuel with
  | some fuel => fuel.toNat
  | none => max UInt64.size program.length

/-- Runs a program from its first instruction. -/
def run (handlers : Handlers) (core : Core) (program : List Instruction) : Core × RunReport :=
  runFrom handlers program.toArray (allowance core.config program) 0 #[] (core.setIp 0)

end Core

def Machine.execute (machine : Machine) (program : List Instruction) : Machine × RunReport :=
  match machine with
  | ⟨core, table, handlers⟩ =>
    let (core, report) := core.run handlers program
    (⟨core, table, handlers⟩, report)

end RegisterMachine
