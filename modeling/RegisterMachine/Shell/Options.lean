import RegisterMachine.Config
import RegisterMachine.Text.Numeral

/-! # Options of the shell

An option is given at most once. One that takes a value finds it after an equals sign, directly
after its letter or in the next argument, which then does not begin with a dash unless it is only
one. Arguments are read from left to right and the first fault ends the reading, as does a request
for the version. There are no other arguments.
-/

namespace RegisterMachine.Shell

/-- What the shell is told. -/
structure Options where
  config : Option String := none
  memoryCells : Option UInt64 := none
  tickPeriod : Option UInt64 := none
  noTimer : Bool := false
  script : Option String := none
  deriving DecidableEq, Repr

/-- What the arguments ask for. -/
inductive Request where
  | version
  | session (options : Options)
  deriving DecidableEq, Repr

inductive UsageError where
  | unexpected (argument : String)
  | missingValue (name : String)
  | unwantedValue (name : String)
  | invalidValue (name : String) (value : String)
  | repeated (name : String)
  deriving DecidableEq, Repr

def UsageError.message : UsageError → String
  | unexpected argument => s!"unexpected argument '{argument}'"
  | missingValue name => s!"a value is required for '{name}'"
  | unwantedValue name => s!"'{name}' takes no value"
  | invalidValue name value => s!"invalid value '{value}' for '{name}'"
  | repeated name => s!"'{name}' cannot be used multiple times"

/-- The options that take a value. -/
inductive ValueOption where
  | config
  | memoryCells
  | tickPeriod
  | script
  deriving DecidableEq, Repr

namespace ValueOption

def name : ValueOption → String
  | config => "--config"
  | memoryCells => "--memory-cells"
  | tickPeriod => "--tick-ms"
  | script => "--script"

def ofName? (text : String) : Option ValueOption :=
  [config, memoryCells, tickPeriod, script].find? fun option => option.name == text

def ofLetter? : Char → Option ValueOption
  | 'c' => some config
  | 's' => some script
  | _ => none

/-- Takes a path, which is not empty, unless one has been given. -/
def path (option : ValueOption) (given : Option String) (value : String) :
    Except UsageError (Option String) :=
  if given.isSome then .error (.repeated option.name)
  else if value.isEmpty then .error (.missingValue option.name)
  else .ok (some value)

/-- Takes a number of 64 bits, unless one has been given. -/
def number (option : ValueOption) (given : Option UInt64) (value : String) :
    Except UsageError (Option UInt64) :=
  if given.isSome then .error (.repeated option.name)
  else
    match Text.natural64? value.toList with
    | some number => .ok (some number)
    | none => .error (.invalidValue option.name value)

def take (options : Options) (value : String) (option : ValueOption) :
    Except UsageError Options := do
  match option with
  | config => return { options with config := ← option.path options.config value }
  | memoryCells => return { options with memoryCells := ← option.number options.memoryCells value }
  | tickPeriod => return { options with tickPeriod := ← option.number options.tickPeriod value }
  | script => return { options with script := ← option.path options.script value }

end ValueOption

inductive Argument where
  | version
  | noTimer
  | valued (option : ValueOption) (value : Option String)
  | ending
  | refused (error : UsageError)

/-- Whether an argument can be the value of the option before it. -/
def isSeparateValue (argument : String) : Bool := argument == "-" || !argument.startsWith "-"

/-- Takes an argument that begins with two dashes apart. -/
def longArgument (argument : String) : Argument :=
  let name := String.ofList (argument.toList.takeWhile (· != '='))
  let value := (argument.toList.dropWhile (· != '=')).tail?.map String.ofList
  match ValueOption.ofName? name, name with
  | some option, _ => .valued option value
  | none, "--no-timer" => if value.isNone then .noTimer else .refused (.unwantedValue name)
  | none, "--version" => if value.isNone then .version else .refused (.unwantedValue name)
  | none, _ => .refused (.unexpected argument)

/-- Takes an argument apart that begins with one dash and a letter. -/
def shortArgument (argument : String) (letter : Char) (rest : List Char) : Argument :=
  match ValueOption.ofLetter? letter, rest with
  | some option, [] => .valued option none
  | some option, '=' :: value => .valued option (some (String.ofList value))
  | some option, value => .valued option (some (String.ofList value))
  | none, _ => if letter = 'V' then .version else .refused (.unexpected argument)

def Argument.ofText (argument : String) : Argument :=
  match argument.toList with
  | ['-', '-'] => .ending
  | '-' :: '-' :: _ => longArgument argument
  | '-' :: letter :: rest => shortArgument argument letter rest
  | _ => .refused (.unexpected argument)

/-- Reads arguments after those already read. -/
def readFrom (options : Options) : List String → Except UsageError Request
  | [] => .ok (.session options)
  | argument :: others =>
    match Argument.ofText argument with
    | .version => .ok .version
    | .noTimer =>
      if options.noTimer then .error (.repeated argument)
      else readFrom { options with noTimer := true } others
    | .valued option (some value) =>
      match option.take options value with
      | .ok options => readFrom options others
      | .error error => .error error
    | .valued option none =>
      match others with
      | [] => .error (.missingValue option.name)
      | value :: others =>
        if isSeparateValue value then
          match option.take options value with
          | .ok options => readFrom options others
          | .error error => .error error
        else .error (.missingValue option.name)
    | .ending =>
      match others with
      | [] => .ok (.session options)
      | stray :: _ => .error (.unexpected stray)
    | .refused error => .error error

def Request.ofArguments (arguments : List String) : Except UsageError Request :=
  readFrom {} arguments

/-- The configuration that the options lead to, from the text of the file that they name. -/
def Options.configure (options : Options) (source : Option String) :
    Except Config.Error Config := do
  let config ←
    match source with
    | some source => Config.ofJsonText source
    | none => .ok {}
  let config := { config with
    memoryCells := options.memoryCells.getD config.memoryCells
    tickPeriod := options.tickPeriod.getD config.tickPeriod }
  config.validate

end RegisterMachine.Shell
