import RegisterMachine.Text.Blank

/-! # Lines

A line ends at a line feed. A carriage return directly before that line feed belongs to the line's
end; any other carriage return is part of the line. Nothing follows the last line feed.
-/

namespace RegisterMachine.Text

/-- A line that a line feed has ended, without the carriage return before that line feed. -/
def dropReturn (line : List Char) : List Char :=
  if line.getLast? = some '\r' then line.dropLast else line

/-- The lines among pieces cut at line feeds; only the last piece is not ended by one. -/
def linesOfPieces : List (List Char) → List (List Char)
  | [] => []
  | [last] => if last.isEmpty then [] else [last]
  | line :: others => dropReturn line :: linesOfPieces others

def lines (text : List Char) : List (List Char) :=
  linesOfPieces (pieces (· == '\n') text)

end RegisterMachine.Text
