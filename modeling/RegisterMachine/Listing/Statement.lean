import RegisterMachine.Text.Lines

/-! # Statements of a listing

A line of a listing is cut into chunks at semicolons, and a comment from a hash mark to the line's
end is dropped. Between double quotes both marks are plain text; a quote that is not closed reaches
to the line's end. A chunk begins with labels, words that end in a colon, and what is left of it is
a statement: a mnemonic and the text of its operand.
-/

namespace RegisterMachine.Listing

/-- Puts a character in front of the first chunk. -/
def extend (c : Char) : List (List Char) → List (List Char)
  | [] => [[c]]
  | chunk :: others => (c :: chunk) :: others

/-- The chunks of a line, or of the rest of one, given whether a quote is open. -/
def chunksFrom (quoted : Bool) : List Char → List (List Char)
  | [] => [[]]
  | c :: rest =>
    if c = '"' then extend c (chunksFrom (!quoted) rest)
    else if quoted then extend c (chunksFrom true rest)
    else if c = ';' then [] :: chunksFrom false rest
    else if c = '#' then [[]]
    else extend c (chunksFrom false rest)

def chunks (line : List Char) : List (List Char) := chunksFrom false line

/-- A mnemonic with the trimmed text of its operand, and the number of its line, from one. -/
structure Statement where
  line : Nat
  mnemonic : String
  rest : List Char
  deriving DecidableEq, Repr

def Statement.arguments (statement : Statement) : List (List Char) := Text.words statement.rest

/-- A chunk of a listing, taken apart. -/
structure Section where
  line : Nat
  labels : List String
  statement : Option Statement
  deriving DecidableEq, Repr

def isLabel (word : List Char) : Bool := word.getLast? == some ':'

/-- The text after a number of words. -/
def afterWords : Nat → List Char → List Char
  | 0, text => text
  | count + 1, text =>
    match Text.firstWord? text with
    | some (_, rest) => afterWords count rest
    | none => []

/-- The words that begin a chunk and define labels. -/
def labelWords (chunk : List Char) : List (List Char) := (Text.words chunk).takeWhile isLabel

/-- Takes a chunk on a given line apart. -/
def Section.ofChunk (line : Nat) (chunk : List Char) : Section :=
  { line
    labels := (labelWords chunk).map fun word => String.ofList word.dropLast
    statement :=
      (Text.firstWord? (afterWords (labelWords chunk).length chunk)).map fun (word, rest) =>
        ⟨line, String.ofList word, rest⟩ }

def sections (source : List Char) : List Section :=
  ((Text.lines source).zipIdx 1).flatMap fun (line, number) =>
    (chunks line).map (Section.ofChunk number)

/-- The statements in the sections of a listing, in order. -/
def statements (sections : List Section) : List Statement := sections.filterMap (·.statement)

/-- A text between one pair of double quotes, without them. -/
def unquote? (text : List Char) : Option (List Char) :=
  match Text.trim text with
  | '"' :: inner => if inner.getLast? = some '"' then some inner.dropLast else none
  | _ => none

end RegisterMachine.Listing
