import Backtrack.Text.CodeRange

/-!
# Blank characters
-/

namespace Backtrack.Text

/-- White space and separators. The four information separators `1C` to `1F` count as blank. -/
def blankRanges : CodeRanges :=
  [(0x09, 0x0D), (0x1C, 0x20), (0x85, 0x85), (0xA0, 0xA0), (0x1680, 0x1680), (0x2000, 0x200A),
   (0x2028, 0x2029), (0x202F, 0x202F), (0x205F, 0x205F), (0x3000, 0x3000)]

def isBlank (c : Char) : Bool := blankRanges.contains c.toNat

/-- The blank characters of ASCII: tab to carriage return, and the space. -/
def isAsciiBlank (c : Char) : Bool := (9 ≤ c.toNat && c.toNat ≤ 13) || c == ' '

end Backtrack.Text
