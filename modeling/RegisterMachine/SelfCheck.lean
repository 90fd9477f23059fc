import RegisterMachine.Console

/-! # The self-check

A sample program leaves thirteen in a register. It runs when a shell opens, and as a command of its
own.
-/

namespace RegisterMachine.SelfCheck

def sample : String := "copy2ax 10; add2ax 5; mul2ax 2; sub2ax 4; div2ax 2; halt"

/-- What the sample program leaves in the first register. -/
def expected : Word := 13

def status : String := String.intercalate "\n"
  ["",
    "================================================================================",
    "SIMOS // EDUCATIONAL REGISTER MACHINE",
    "================================================================================",
    "[ ARCHITECTURE ]",
    "Flat Memory + In-Memory Tree FS + Register CPU + Round-Robin Scheduler.",
    "",
    "[ SUBSYSTEMS ]",
    "[x] MEMORY: fixed cells, bounds-checked, stack grows from address 0.",
    "[x] FS: mkdir / cd / ls / write / read / rm relative to cwd.",
    "[x] CPU: ax, bx, cx, sp, ip, flag. Fuel-limited free run.",
    "[x] SCHEDULER: one instruction per ready process per tick.",
    "",
    "BOOT SELF-CHECK:",
    "TEST: REGISTER_ARITHMETIC ... "]

def outcomeName : RunOutcome → String
  | .completed => "Completed"
  | .halted => "Halted"
  | .outOfFuel => "OutOfFuel"

def verdict (program : List Instruction) : String :=
  let (machine, report) := (Machine.ofConfig {}).execute program
  let result := machine.core.cpu.registers.ax
  if report.outcome = .halted ∧ result = expected then "PASS"
  else s!"FAIL (AX: {result}, {outcomeName report.outcome})"

/-- The text that a shell opens with. -/
def suite : String :=
  match Program.ofText sample with
  | .error error => s!"{status}FAIL ({error.message})\n"
  | .ok program => s!"{status}{verdict program}\n\n{Console.help}"

/-- The answer of a fresh console to the sample program, with the records of the log and the value
that the first register is left with. -/
def consoleRun : Answer × List Log.Record × Word :=
  let (machine, answer) := Console.answer (Machine.ofConfig {}) s!"run {sample}"
  (answer, machine.core.log.records, machine.core.cpu.registers.ax)

end RegisterMachine.SelfCheck
