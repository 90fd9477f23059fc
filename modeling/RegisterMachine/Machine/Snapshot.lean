import RegisterMachine.Machine.Basic

/-! # Snapshots

A snapshot shows the processor, the working path and the table of processes as one JSON object.
-/

namespace RegisterMachine

/-- The name of a flag, with a capital letter. -/
def Flag.title : Flag → String
  | unset => "Unset"
  | equal => "Equal"
  | greater => "Greater"
  | less => "Less"

def Flag.name : Flag → String
  | unset => "unset"
  | equal => "equal"
  | greater => "greater"
  | less => "less"

namespace Machine

def registersLine (machine : Machine) : String :=
  let cpu := machine.core.cpu
  let registers := cpu.registers
  s!"AX: {registers.ax} BX: {registers.bx} CX: {registers.cx} SP: {registers.stackPointer} " ++
    s!"IP: {cpu.ip} FLAG: {registers.flag.title} HALTED: {cpu.halted}"

/-- The JSON form of a machine. -/
def snapshot (machine : Machine) : Json.Value :=
  let cpu := machine.core.cpu
  let registers := cpu.registers
  .object
    [("ax", .integer registers.ax.toInt), ("bx", .integer registers.bx.toInt),
      ("cx", .integer registers.cx.toInt), ("sp", .integer registers.stackPointer.toNat),
      ("ip", .integer cpu.ip), ("flag", .text registers.flag.name), ("halted", .boolean cpu.halted),
      ("cwd", .text machine.core.files.pathText),
      ("processes", .array (machine.table.processes.map Process.toJson))]

end Machine

end RegisterMachine
