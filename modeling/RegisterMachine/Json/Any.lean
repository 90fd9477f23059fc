import RegisterMachine.Json.Number

/-! # Reading any JSON value

A value can be read whole, read past, or looked at only to say what it is. Reading whole goes down a
bounded number of levels; reading past has no bound and asks less of strings and numbers.
-/

namespace RegisterMachine.Json

/-- The levels of arrays and objects that reading goes down. -/
def maximalDepth : Nat := 127

def numberValue : Reader Value := fun text => do
  let (found, rest) ← number text
  match found with
  | .integer value => return (.integer value, rest)
  | .real value => return (.real value, rest)

/-- Reads a value with at most the given number of levels. -/
def value : Nat → Reader Value
  | depth, text =>
    match skipSpace text with
    | [] => .error .endOfText
    | 'n' :: rest => do
      let (_, rest) ← literal ['u', 'l', 'l'] rest
      return (.null, rest)
    | 't' :: rest => do
      let (_, rest) ← literal ['r', 'u', 'e'] rest
      return (.boolean true, rest)
    | 'f' :: rest => do
      let (_, rest) ← literal ['a', 'l', 's', 'e'] rest
      return (.boolean false, rest)
    | '"' :: rest => do
      let (found, rest) ← characters rest
      return (.text found, rest)
    | '[' :: rest =>
      match depth with
      | 0 => .error .malformed
      | depth + 1 => do
        let item (read : List Value) : Reader (List Value) := fun text => do
          let (found, rest) ← value depth text
          return (found :: read, rest)
        let (found, rest) ← items item [] rest
        return (.array found.reverse, rest)
    | '\x7b' :: rest =>
      match depth with
      | 0 => .error .malformed
      | depth + 1 => do
        let member (read : List (String × Value)) : Reader (List (String × Value)) := fun text => do
          let (name, rest) ← key text
          let (_, rest) ← mark ':' rest
          let (found, rest) ← value depth rest
          return ((name, found) :: read, rest)
        let (found, rest) ← members member [] rest
        return (.object found.reverse, rest)
    | c :: rest => if c = '-' ∨ isDigit c then numberValue (c :: rest) else .error .malformed

/-- Reads past a value, down to as many levels as the bound has characters. -/
def skipValueFrom : List Char → Reader Unit
  | [], _ => .error .endOfText
  | _ :: bound, text =>
    match skipSpace text with
    | [] => .error .endOfText
    | 'n' :: rest => literal ['u', 'l', 'l'] rest
    | 't' :: rest => literal ['r', 'u', 'e'] rest
    | 'f' :: rest => literal ['a', 'l', 's', 'e'] rest
    | '"' :: rest => skipCharacters rest
    | '[' :: rest => items (fun _ => skipValueFrom bound) () rest
    | '\x7b' :: rest =>
      let member (_ : Unit) : Reader Unit := fun text => do
        let (_, rest) ← mark '"' text
        let (_, rest) ← skipCharacters rest
        let (_, rest) ← mark ':' rest
        skipValueFrom bound rest
      members member () rest
    | c :: rest => if c = '-' ∨ isDigit c then skipNumber (c :: rest) else .error .malformed

def skipValue : Reader Unit := fun text => skipValueFrom (bound text) text

/-- What stands at the text's beginning, in place of something else. Numbers, strings and words are
read whole; of an array or object the opening mark is enough. -/
def found (text : List Char) : Except Problem Found :=
  match skipSpace text with
  | [] => .error .endOfText
  | 'n' :: rest => (literal ['u', 'l', 'l'] rest).map fun _ => .null
  | 't' :: rest => (literal ['r', 'u', 'e'] rest).map fun _ => .boolean true
  | 'f' :: rest => (literal ['a', 'l', 's', 'e'] rest).map fun _ => .boolean false
  | '"' :: rest => (characters rest).map fun read => .text read.1
  | '[' :: _ => .ok .array
  | '\x7b' :: _ => .ok .object
  | c :: rest =>
    if c = '-' ∨ isDigit c then do
      let (read, _) ← number (c :: rest)
      match read with
      | .integer value => return .integer value
      | .real value => return .real value
    else .error .malformed

def refuse (wanted : String) : Reader α := fun text => do
  .error (.wrongKind (← found text) wanted)

def string (wanted : String) : Reader String := fun text =>
  match skipSpace text with
  | '"' :: rest => characters rest
  | rest => refuse wanted rest

/-- Reads an array or an object, after its opening mark, by the reader given for it. -/
def structured (wanted : String) (array object : Reader α) : Reader α := fun text =>
  match skipSpace text with
  | '[' :: rest => array rest
  | '\x7b' :: rest => object rest
  | rest => refuse wanted rest

/-- Reads nothing where the word `null` stands, and by the reader given elsewhere. -/
def nullable (reader : Reader α) : Reader (Option α) := fun text =>
  match skipSpace text with
  | 'n' :: rest => do
    let (_, rest) ← literal ['u', 'l', 'l'] rest
    return (none, rest)
  | rest => do
    let (read, rest) ← reader rest
    return (some read, rest)

/-- Reads a whole text, after which only spaces may follow. -/
def whole (reader : Reader α) (text : List Char) : Except Problem α := do
  let (read, rest) ← reader text
  if (skipSpace rest).isEmpty then return read else .error .malformed

end RegisterMachine.Json
