import RegisterMachine.Json.Any

/-! # Configuration

A machine is set up with the size of its memory, a bound on the instructions of one run, the period
at which its host should tick it and what an unknown mnemonic does to it. In JSON any field may be
left out; an array gives the fields in order and may be shorter. A configuration that reads is then
checked against its bounds.
-/

namespace RegisterMachine

namespace Config

/-- What happens after an unknown mnemonic has been skipped. -/
inductive UnknownPolicy where
  | halt
  | warn
  deriving DecidableEq, Repr

def UnknownPolicy.name : UnknownPolicy → String
  | halt => "halt"
  | warn => "warn"

/-- The greatest memory that a configuration may ask for. -/
def maximalCells : Nat := 1048576

end Config

/-- How a machine is set up. -/
structure Config where
  memoryCells : UInt64 := 256
  /-- The most instructions that one run dispatches; nothing bounds a run without it. -/
  fuel : Option UInt64 := some 100000
  /-- The period of the host's timer, in milliseconds. -/
  tickPeriod : UInt64 := 100
  unknownMnemonic : Config.UnknownPolicy := .halt
  deriving DecidableEq, Repr

namespace Config

/-- What breaks the bounds of a configuration. -/
inductive Violation where
  | noMemory
  | tooMuchMemory
  | noPeriod
  deriving DecidableEq, Repr

/-- Why a text is not a configuration. -/
inductive Error where
  | malformed (problem : Json.Problem)
  | invalid (violation : Violation)

def Violation.message : Violation → String
  | noMemory => "memory_cells must be positive"
  | tooMuchMemory => s!"memory_cells must be at most {maximalCells}"
  | noPeriod => "tick_period_ms must be positive"

def Error.message : Error → String
  | malformed problem => s!"malformed config: {problem.message}"
  | invalid violation => s!"invalid config: {violation.message}"

/-- The first bound that a configuration breaks. -/
def violation? (config : Config) : Option Violation :=
  if config.memoryCells = 0 then some .noMemory
  else if maximalCells < config.memoryCells.toNat then some .tooMuchMemory
  else if config.tickPeriod = 0 then some .noPeriod
  else none

/-- Refuses a configuration that breaks a bound. -/
def validate (config : Config) : Except Error Config :=
  match config.violation? with
  | some violation => .error (.invalid violation)
  | none => .ok config

def toJson (config : Config) : Json.Value :=
  .object
    [("memory_cells", .integer config.memoryCells.toNat),
      ("fuel", match config.fuel with
        | some fuel => .integer fuel.toNat
        | none => .null),
      ("tick_period_ms", .integer config.tickPeriod.toNat),
      ("unknown_opcode", .text config.unknownMnemonic.name)]

/-! ## Reading -/

/-- Reads a natural number of at most 64 bits. -/
def natural (wanted : String) : Json.Reader UInt64 := fun text =>
  match Json.skipSpace text with
  | [] => .error .endOfText
  | c :: rest =>
    if c = '-' ∨ Json.isDigit c then do
      let (found, rest) ← Json.number (c :: rest)
      match found with
      | .real value => .error (.wrongKind (.real value) wanted)
      | .integer value =>
        if 0 ≤ value then return (UInt64.ofNat value.toNat, rest)
        else .error (.wrongInteger value wanted)
    else Json.refuse wanted (c :: rest)

def policy (name : String) : Except Json.Problem UnknownPolicy :=
  if name == "halt" then .ok .halt
  else if name == "warn" then .ok .warn
  else .error (.unknownChoice name "halt" "warn")

/-- Reads the word null where a policy takes no more than its name. -/
def nothing : Json.Reader Unit := fun text =>
  match Json.skipSpace text with
  | 'n' :: rest => Json.literal ['u', 'l', 'l'] rest
  | rest => Json.refuse "unit" rest

/-- Reads a policy: its name, or an object with its name over null. -/
def policyReader : Json.Reader UnknownPolicy := fun text =>
  match Json.skipSpace text with
  | [] => .error .endOfText
  | '"' :: rest => do
    let (name, rest) ← Json.characters rest
    return (← policy name, rest)
  | '\x7b' :: rest => do
    let (name, rest) ← Json.key rest
    let found ← policy name
    let (_, rest) ← Json.mark ':' rest
    let (_, rest) ← nothing rest
    let (_, rest) ← Json.mark '\x7d' rest
    return (found, rest)
  | _ => .error .malformed

/-- The fields of a configuration, in order. -/
inductive Field where
  | memoryCells
  | fuel
  | tickPeriod
  | unknownMnemonic
  deriving DecidableEq, Repr

def Field.all : List Field := [memoryCells, fuel, tickPeriod, unknownMnemonic]

def Field.key : Field → String
  | memoryCells => "memory_cells"
  | fuel => "fuel"
  | tickPeriod => "tick_period_ms"
  | unknownMnemonic => "unknown_opcode"

def Field.read (config : Config) : Field → Json.Reader Config
  | memoryCells => fun text => do
    let (size, rest) ← natural "usize" text
    return ({ config with memoryCells := size }, rest)
  | fuel => fun text => do
    let (limit, rest) ← Json.nullable (natural "u64") text
    return ({ config with fuel := limit }, rest)
  | tickPeriod => fun text => do
    let (period, rest) ← natural "u64" text
    return ({ config with tickPeriod := period }, rest)
  | unknownMnemonic => fun text => do
    let (chosen, rest) ← policyReader text
    return ({ config with unknownMnemonic := chosen }, rest)

/-- Reads one member of a configuration, given the fields read before it. -/
def member (state : List Field × Config) : Json.Reader (List Field × Config) := fun text => do
  let (name, rest) ← Json.key text
  match Field.all.find? fun field => field.key == name with
  | some field =>
    if state.1.contains field then .error (.repeatedField name)
    let (_, rest) ← Json.mark ':' rest
    let (config, rest) ← field.read state.2 rest
    return ((field :: state.1, config), rest)
  | none =>
    let (_, rest) ← Json.mark ':' rest
    let (_, rest) ← Json.skipValue rest
    return (state, rest)

def fromObject : Json.Reader Config := fun text => do
  let ((_, config), rest) ← Json.members member ([], {}) text
  return (config, rest)

/-- Reads the given fields from the items of an array, as far as the array goes. -/
def itemsOf (config : Config) (first : Bool) : List Field → Json.Reader Config
  | [], text => .ok (config, text)
  | field :: others, text => do
    let (more, rest) ← Json.hasItem first text
    if more then
      let (config, rest) ← field.read config rest
      itemsOf config false others rest
    else return (config, rest)

def fromArray : Json.Reader Config := fun text => do
  let (config, rest) ← itemsOf {} true Field.all text
  let (_, rest) ← Json.mark ']' rest
  return (config, rest)

/-- Reads a configuration, whatever its bounds. -/
def reader : Json.Reader Config := Json.structured "struct MachineConfig" fromArray fromObject

def ofJsonText (source : String) : Except Error Config := do
  let config ← (Json.whole reader source.toList).mapError .malformed
  config.validate

end Config

end RegisterMachine
