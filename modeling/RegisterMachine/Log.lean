import RegisterMachine.Json.Value

/-! # The log

The machine reports what happens to it in a log that keeps the newest records, oldest first, until
they are drained.
-/

namespace RegisterMachine

namespace Log

/-- How grave a record is. -/
inductive Level where
  | info
  | warning
  | error
  deriving DecidableEq, Repr

def Level.name : Level → String
  | info => "info"
  | warning => "warn"
  | error => "error"

structure Record where
  level : Level
  message : String
  deriving DecidableEq, Repr

def Record.text (record : Record) : String := s!"[{record.level.name}] {record.message}"

def Record.toJson (record : Record) : Json.Value :=
  .object [("level", .text record.level.name), ("message", .text record.message)]

/-- The number of records kept. -/
def capacity : Nat := 64

end Log

/-- The newest records, oldest first. -/
structure Log where
  records : List Log.Record := []
  deriving DecidableEq, Repr

namespace Log

/-- Adds a record; at capacity the oldest one makes room. -/
def push (log : Log) (level : Level) (message : String) : Log :=
  let kept := if log.records.length = capacity then log.records.drop 1 else log.records
  ⟨kept ++ [⟨level, message⟩]⟩

/-- The records held, and the log without them. -/
def drain (log : Log) : List Record × Log := (log.records, {})

def toJson (records : List Record) : Json.Value := .array (records.map Record.toJson)

end Log

end RegisterMachine
