import Backtrack.Text.Basic

/-!
# Lines of a text

Excerpts are cut from lines in the wide sense: a line ends at any of ten breaking characters, and a
carriage return followed by a line feed is one break. Line numbers count line feeds only and do not
use this division.
-/

namespace Backtrack.Text

def isLineBreak (c : Char) : Bool :=
  [0x0A, 0x0B, 0x0C, 0x0D, 0x1C, 0x1D, 0x1E, 0x85, 0x2028, 0x2029].contains c.toNat

/-- Puts a character in front of the first line, opening one if there is none. -/
def extendFirst (c : Char) : List Text → List Text
  | [] => [[c]]
  | l :: ls => (c :: l) :: ls

/-- The lines without their breaks. A break at the end of the text opens no further line. -/
def lines : Text → List Text
  | [] => []
  | '\r' :: '\n' :: rest => [] :: lines rest
  | c :: rest => if isLineBreak c then [] :: lines rest else extendFirst c (lines rest)

end Backtrack.Text
