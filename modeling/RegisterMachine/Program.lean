import RegisterMachine.Instruction.Read
import RegisterMachine.Listing.Assemble

/-! # Programs

A program is a list of instructions. It is read from a listing, or from JSON when the first
character that is not blank opens an array.
-/

namespace RegisterMachine.Program

inductive ReadError where
  | listing (error : Listing.AssembleError)
  | json (problem : Json.Problem)

def ReadError.message : ReadError → String
  | listing error => error.message
  | json problem => s!"malformed JSON program: {problem.message}"

/-- Reads the instructions of a program, newest first. -/
def instruction (read : List Instruction) : Json.Reader (List Instruction) := fun text => do
  let (found, rest) ← Instruction.reader (Json.maximalDepth - 2) text
  return (found :: read, rest)

def reader : Json.Reader (List Instruction) := fun text =>
  match Json.skipSpace text with
  | '[' :: rest => do
    let (found, rest) ← Json.items instruction [] rest
    return (found.reverse, rest)
  | rest => Json.refuse "a sequence" rest

def ofJsonText (source : String) : Except ReadError (List Instruction) :=
  (Json.whole reader source.toList).mapError .json

def ofListing (source : String) : Except ReadError (List Instruction) :=
  (Listing.assemble source).mapError .listing

def ofText (source : String) : Except ReadError (List Instruction) :=
  match Text.trimStart source.toList with
  | '[' :: _ => ofJsonText source
  | _ => ofListing source

end RegisterMachine.Program
