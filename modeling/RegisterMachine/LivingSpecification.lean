import RegisterMachine.Console
import RegisterMachine.SelfCheck

/-! # The living specification

Twelve checks of the machine, the file tree and the processes, each with a name and a verdict. A
failed check says what was wrong.
-/

namespace RegisterMachine.LivingSpecification

/-- A check: nothing, or what was wrong. -/
abbrev Verdict := Except String Unit

/-- Fails with a message unless something holds. -/
def require (holds : Bool) (message : String) : Verdict :=
  if holds then .ok () else .error message

def program (source : String) : Except String (List Instruction) :=
  (Program.ofText source).mapError Program.ReadError.message

/-- The machine and the report after a run of a listing. -/
def runOn (machine : Machine) (source : String) : Except String (Machine × RunReport) := do
  return machine.execute (← program source)

/-- The processor after a run of a listing on a fresh machine. -/
def run (source : String) : Except String Machine := do
  return (← runOn (Machine.ofConfig {}) source).1

def value (machine : Machine) (register : Register) : Word := machine.core.get register

/-- Turns an error of the file tree into its words. -/
def files (result : Except Files.Error α) : Except String α := result.mapError Files.Error.message

/-- A stored value is loaded again. -/
def memoryRoundTrip : Verdict := do
  let machine ← run "copy2ax -7; storeMem 10 ax; copy2ax 0; loadMem 10 bx"
  require (value machine .bx == -7) "loadMem did not return the stored value"
  require (machine.core.memory.read 10 matches .ok (-7)) "memory cell not written"

/-- A store outside the memory halts the program and changes no cell. -/
def memoryOutOfRange : Verdict := do
  let (machine, report) ← runOn (Machine.ofConfig {}) "copy2ax 1; storeMem 256 ax; copy2bx 9"
  require (report.outcome == .halted) "out-of-range store did not halt"
  require (value machine .bx == 0) "execution continued past the fault"
  require (machine.core.memory.cells.all (· == 0)) "memory was modified"
  require (report.faults.toList matches .bounds (.write 256 _) :: _) "wrong fault"

/-- A pushed value is popped and the stack pointer returns to where it was. -/
def stackPushPop : Verdict := do
  let machine ← run "copy2bx 41; push bx; copy2bx 0; pop ax"
  require (value machine .ax == 41) "pop did not return the pushed value"
  require (machine.core.cpu.registers.stackPointer == 0) "sp not restored"

/-- The push after the last cell overflows the stack and moves no pointer. -/
def stackOverflow : Verdict := do
  let (machine, report) ← runOn (Machine.ofConfig { memoryCells := 4 })
    "push ax; push ax; push ax; push ax; push ax"
  require (report.steps == 5) "overflow came too early"
  require (machine.core.cpu.registers.stackPointer == 4) "sp moved past capacity"
  require (report.faults.toList matches [.bounds (.stackOverflow ..)])
    "fifth push was not a stack overflow"

/-- Going to a directory and back up restores the path. -/
def pathRestored : Verdict := do
  let tree ← files (({} : Files).makeDirectory "a")
  let tree ← files (tree.changeDirectory "a")
  require (tree.pathText == "/a") "cd did not enter"
  let tree ← files (tree.changeDirectory "..")
  require (tree.pathText == "/") "cd .. did not restore the path"

/-- A written file is read back and is gone once removed. -/
def writeReadRemove : Verdict := do
  let tree ← files (({} : Files).write "f" "hello")
  require (tree.read "f" matches .ok "hello") "read did not return the content"
  let tree ← files (tree.remove "f")
  require (tree.read "f" matches .error (.notFound _)) "read after rm succeeded"

/-- A comparison sets the flag that the next jump follows. -/
def compareAndJump : Verdict := do
  let machine ← run "copy2ax 3; cmpax 3; jmpIfEqual 4; copy2bx 1; copy2cx 1"
  require (machine.core.cpu.registers.flag == .equal) "cmp did not set Equal"
  require (value machine .bx == 0 && value machine .cx == 1) "je did not branch"

/-- A division or remainder by zero halts, is reported as such and leaves the register. -/
def zeroDivisorHalts (source : String) : Verdict := do
  let (machine, report) ← runOn (Machine.ofConfig {}) source
  require (report.outcome == .halted) "zero divisor did not halt"
  require (report.faults.toList matches [.arithmetic .divisionByZero] ||
    report.faults.toList matches [.arithmetic .moduloByZero]) "wrong fault"
  require (value machine .ax == 9) "ax modified by a failed division"

/-- Division and remainder treat a zero divisor alike. -/
def divisionByZero : Verdict := do
  zeroDivisorHalts "copy2ax 9; div2ax 0"
  zeroDivisorHalts "copy2ax 9; mod2ax 0"

/-- A later process has a greater number. -/
def pidsIncrease : Verdict :=
  let (machine, first) := (Machine.ofConfig {}).spawn []
  let (_, second) := machine.spawn []
  require (first < second) "PIDs are not increasing"

/-- A killed process runs no more and the others go on. -/
def killIsolates : Verdict := do
  let code ← program "incbx; incbx"
  let (machine, first) := (Machine.ofConfig {}).spawn code
  let (machine, second) := machine.spawn code
  let machine ← (machine.kill first).mapError NoSuchProcess.message
  match (machine.tick.1).table.processes with
  | [killed, survivor] =>
    require (killed.state == .halted && killed.ip == 0) "killed process ran"
    require (survivor.pid == second && survivor.ip == 1) "survivor did not run"
  | _ => .error "killed process ran"

/-- A process that ran out of code halts and the others go on. -/
def exhaustedHalts : Verdict := do
  let (machine, short) := (Machine.ofConfig {}).spawn (← program "incax")
  let (machine, long) := machine.spawn (← program "incax; incax; incax")
  let (_, report) := machine.tick.1.tick
  require (report.halted == [short]) "exhausted process did not halt"
  require (report.dispatched == [long]) "other process was disturbed"

/-- The sample program ends halted with its result. -/
def endToEnd : Verdict := do
  let machine ← run SelfCheck.sample
  let result := value machine .ax
  require (result == SelfCheck.expected) s!"Math failed: ax = {result}"
  require machine.core.cpu.halted "not halted"

/-- Every check with its name, in order. -/
def checks : List (String × Verdict) :=
  [("MEMORY_ROUND_TRIP", memoryRoundTrip), ("MEMORY_OUT_OF_RANGE_HALTS", memoryOutOfRange),
    ("STACK_PUSH_POP", stackPushPop), ("STACK_OVERFLOW_AT_CAPACITY", stackOverflow),
    ("FS_PATH_RESTORE", pathRestored), ("FS_WRITE_READ_RM", writeReadRemove),
    ("CMP_JUMP_FLAGS", compareAndJump), ("DIVISION_BY_ZERO_HALTS", divisionByZero),
    ("PID_ALLOCATION", pidsIncrease), ("KILL_ISOLATION", killIsolates),
    ("EXHAUSTED_PROCESS_HALTS", exhaustedHalts), ("END_TO_END_ARITHMETIC", endToEnd)]

/-- The text above the checks. -/
def manifesto : String := String.intercalate "\n"
  ["",
    "================================================================================",
    "SIMOS // LIVING SPECIFICATION",
    "================================================================================",
    "",
    "[ MISSION ]",
    "A small, inspectable register machine for teaching: flat memory, a tree",
    "filesystem, six registers and a round-robin scheduler, all deterministic and",
    "all reachable from a terminal.",
    "",
    "[ ROADMAP ]",
    "--------------------------------------------------------------------------------",
    "PHASE 1: THE MACHINE",
    "[x] 1.1 Flat memory with bounds checks and a stack at address 0.",
    "[x] 1.2 Register CPU, flag, fetch-execute loop with fuel.",
    "[x] 1.3 In-memory filesystem (mkdir / cd / ls / write / read / rm).",
    "[x] 1.4 Text + JSON assembler with labels.",
    "",
    "PHASE 2: THE SCHEDULER",
    "[x] 2.1 Process table with monotonically increasing PIDs.",
    "[x] 2.2 One instruction per ready process per tick.",
    "[x] 2.3 Host timer (CLI thread, browser setInterval).",
    "",
    "[ KNOWN BEHAVIOUR ]",
    "--------------------------------------------------------------------------------",
    "NOTE #001: Scheduled jumps",
    "  - Under the scheduler every instruction advances ip by one, so jumps inside",
    "    spawned programs do not branch. Free-run `execute` honours them.",
    "",
    "================================================================================",
    "UNIT TEST SUITE",
    "================================================================================",
    ""]

end RegisterMachine.LivingSpecification
