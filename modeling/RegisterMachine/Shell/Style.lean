/-! # Coloured text

A style surrounds a text with terminal codes. A code inside the text that ends every style would end
this one too, so the style begins again after it. Without colours text stays as it is.
-/

namespace RegisterMachine.Shell

inductive Style where
  | dimmed
  | red
  | green
  | yellow
  | blue
  | boldGreen
  deriving DecidableEq, Repr

def Style.code : Style → String
  | dimmed => "2"
  | red => "31"
  | green => "32"
  | yellow => "33"
  | blue => "34"
  | boldGreen => "1;32"

def Style.start (style : Style) : String := s!"\x1b[{style.code}m"

/-- The text that ends every style. -/
def styleEnd : String := "\x1b[0m"

/-- The text that clears the screen and goes to its upper left corner. -/
def clearScreen : String := "\x1b[2J\x1b[H"

def Style.paint (style : Style) (colored : Bool) (text : String) : String :=
  if colored then
    style.start ++ String.intercalate (styleEnd ++ style.start) (text.splitOn styleEnd) ++ styleEnd
  else text

end RegisterMachine.Shell
