import RegisterMachine.Json.Problem

/-! # Reading JSON text

A reader takes a beginning off the text and leaves the rest. The readers here know the punctuation
of arrays and objects, the words of the language and its strings. Only space, tab, line feed and
carriage return may stand between tokens. A reader that goes on and on is bounded by a text: it goes
on at most once for each of the bound's characters and stops for want of one, which a bound longer
than the text read rules out.
-/

namespace RegisterMachine.Json

/-- Reads a value from the beginning of a text and leaves the rest. -/
abbrev Reader (α : Type) := List Char → Except Problem (α × List Char)

/-- Whether a character may stand between tokens. -/
def isSpace (c : Char) : Bool := c == ' ' || c == '\t' || c == '\n' || c == '\r'

/-- The text from its next token on. -/
def skipSpace (text : List Char) : List Char := text.dropWhile isSpace

def literal : List Char → Reader Unit
  | [], text => .ok ((), text)
  | _ :: _, [] => .error .endOfText
  | wanted :: others, c :: rest =>
    if c = wanted then literal others rest else .error .malformed

/-! ## Punctuation -/

def mark (wanted : Char) : Reader Unit := fun text =>
  match skipSpace text with
  | [] => .error .endOfText
  | c :: rest => if c = wanted then .ok ((), rest) else .error .malformed

/-- Whether the array goes on. A comma before an item is taken off the text, and the closing bracket
is left on it. -/
def hasItem (first : Bool) : Reader Bool := fun text =>
  match skipSpace text with
  | [] => .error .endOfText
  | ']' :: rest => .ok (false, ']' :: rest)
  | c :: rest =>
    if first then .ok (true, c :: rest)
    else if c = ',' then
      match skipSpace rest with
      | [] => .error .endOfText
      | ']' :: _ => .error .malformed
      | item => .ok (true, item)
    else .error .malformed

/-- Whether the object goes on. A comma before a member is taken off the text, and the quote of the
member's key or the closing brace is left on it. -/
def hasMember (first : Bool) : Reader Bool := fun text =>
  match skipSpace text with
  | [] => .error .endOfText
  | '\x7d' :: rest => .ok (false, '\x7d' :: rest)
  | c :: rest =>
    if first then if c = '"' then .ok (true, c :: rest) else .error .malformed
    else if c = ',' then
      match skipSpace rest with
      | [] => .error .endOfText
      | '"' :: key => .ok (true, '"' :: key)
      | _ => .error .malformed
    else .error .malformed

/-- A bound that is longer than a text. -/
def bound (text : List Char) : List Char := ' ' :: text

/-- Reads items up to the closing bracket, each by what the items before it came to, within a
bound. -/
def itemsFrom (item : σ → Reader σ) : List Char → Bool → σ → Reader σ
  | [], _, _, _ => .error .endOfText
  | _ :: bound, first, state, text => do
    let (more, rest) ← hasItem first text
    if more then
      let (state, rest) ← item state rest
      itemsFrom item bound false state rest
    else
      let (_, rest) ← mark ']' rest
      return (state, rest)

/-- Reads the items of an array after its opening bracket. -/
def items (item : σ → Reader σ) (start : σ) : Reader σ := fun text =>
  itemsFrom item (bound text) true start text

/-- Reads members up to the closing brace, each by what the members before it came to, within a
bound. -/
def membersFrom (member : σ → Reader σ) : List Char → Bool → σ → Reader σ
  | [], _, _, _ => .error .endOfText
  | _ :: bound, first, state, text => do
    let (more, rest) ← hasMember first text
    if more then
      let (state, rest) ← member state rest
      membersFrom member bound false state rest
    else
      let (_, rest) ← mark '\x7d' rest
      return (state, rest)

/-- Reads the members of an object after its opening brace. -/
def members (member : σ → Reader σ) (start : σ) : Reader σ := fun text =>
  membersFrom member (bound text) true start text

/-! ## Strings -/

/-- The character that a backslash and a letter stand for. -/
def escaped? : Char → Option Char
  | '"' => some '"'
  | '\\' => some '\\'
  | '/' => some '/'
  | 'b' => some '\x08'
  | 'f' => some '\x0c'
  | 'n' => some '\n'
  | 'r' => some '\r'
  | 't' => some '\t'
  | _ => none

/-- The value of a hexadecimal digit in either case. -/
def hexValue? (c : Char) : Option Nat :=
  if '0' ≤ c ∧ c ≤ '9' then some (c.toNat - '0'.toNat)
  else if 'a' ≤ c ∧ c ≤ 'f' then some (c.toNat - 'a'.toNat + 10)
  else if 'A' ≤ c ∧ c ≤ 'F' then some (c.toNat - 'A'.toNat + 10)
  else none

/-- The number that hexadecimal digits name. -/
def hexNumber? (digits : List Char) : Option Nat :=
  digits.foldl (fun read c => do return (← read) * 16 + (← hexValue? c)) (some 0)

/-- Reads four hexadecimal digits. The text has ended when fewer than four bytes are left of it. -/
def hexQuad : Reader Nat := fun text =>
  if (String.ofList (text.take 4)).utf8ByteSize < 4 then .error .endOfText
  else
    match hexNumber? (text.take 4) with
    | some n => .ok (n, text.drop 4)
    | none => .error .malformed

/-- Whether a number is the first half of a surrogate pair. -/
def isLeading (n : Nat) : Bool := 0xD800 ≤ n && n ≤ 0xDBFF

/-- Whether a number is the second half of a surrogate pair. -/
def isTrailing (n : Nat) : Bool := 0xDC00 ≤ n && n ≤ 0xDFFF

/-- Reads the character that a `\u` escape names, whose second half follows it where the first is
half of a surrogate pair. -/
def codePoint : Reader Char := fun text => do
  let (leading, rest) ← hexQuad text
  if isTrailing leading then .error .malformed
  else if isLeading leading then
    let (_, rest) ← literal ['\\', 'u'] rest
    let (trailing, rest) ← hexQuad rest
    if isTrailing trailing then
      return (Char.ofNat ((leading - 0xD800) * 0x400 + (trailing - 0xDC00) + 0x10000), rest)
    else .error .malformed
  else return (Char.ofNat leading, rest)

/-- Reads what follows a backslash. -/
def escape : Reader Char := fun text =>
  match text with
  | [] => .error .endOfText
  | 'u' :: rest => codePoint rest
  | c :: rest =>
    match escaped? c with
    | some meant => .ok (meant, rest)
    | none => .error .malformed

/-- Reads past what follows a backslash; halves of surrogate pairs need no partner. -/
def skipEscape : Reader Unit := fun text =>
  match text with
  | [] => .error .endOfText
  | 'u' :: rest => do
    let (_, rest) ← hexQuad rest
    return ((), rest)
  | c :: rest => if (escaped? c).isSome then .ok ((), rest) else .error .malformed

/-- Reads characters up to the closing quote, within a bound. -/
def charactersFrom : List Char → Reader (List Char)
  | [], _ => .error .endOfText
  | _ :: bound, text =>
    match text with
    | [] => .error .endOfText
    | '"' :: rest => .ok ([], rest)
    | '\\' :: rest => do
      let (c, rest) ← escape rest
      let (others, rest) ← charactersFrom bound rest
      return (c :: others, rest)
    | c :: rest =>
      if c.toNat < 0x20 then .error .malformed
      else do
        let (others, rest) ← charactersFrom bound rest
        return (c :: others, rest)

def characters : Reader String := fun text => do
  let (cs, rest) ← charactersFrom (bound text) text
  return (String.ofList cs, rest)

/-- Reads past characters up to the closing quote, within a bound. -/
def skipCharactersFrom : List Char → Reader Unit
  | [], _ => .error .endOfText
  | _ :: bound, text =>
    match text with
    | [] => .error .endOfText
    | '"' :: rest => .ok ((), rest)
    | '\\' :: rest => do
      let (_, rest) ← skipEscape rest
      skipCharactersFrom bound rest
    | c :: rest => if c.toNat < 0x20 then .error .malformed else skipCharactersFrom bound rest

def skipCharacters : Reader Unit := fun text => skipCharactersFrom (bound text) text

/-- Reads the key of a member, which stands directly at the text's beginning. -/
def key : Reader String := fun text => do
  let (_, rest) ← mark '"' text
  characters rest

end RegisterMachine.Json
