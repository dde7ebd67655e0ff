import Backtrack.Fault
import Backtrack.Text.Line

/-!
# Places in a text

A place is a position as a reader finds it: line, column and an excerpt of the line with a caret
below. Lines are counted by line feeds, and the first line and column have the number 1. A position
beyond the end is shown as the end. The excerpt is taken from the lines in the wide sense, so in a
text with other breaks than line feeds it may show another line, or none. Far before the text there is
no place for a caret, and the excerpt is a fault.
-/

namespace Backtrack

/-- A piece of a line, and how far the caret below it is indented. -/
structure Excerpt where
  line : Text
  indent : Nat

namespace Excerpt

/-- How many spaces are made of a number. Below zero there are none, as long as it is a count. -/
def spaces (n : Int) : Except Fault Nat :=
  if n < -indexLimit then .error .noCount else .ok n.toNat

/-- Up to column 20 the excerpt is the first 40 characters of the line, with the caret below the
column. Beyond, it is the 40 characters from offset `column - 20` on, with the caret indented by
20. -/
def cut (line : Text) (column : Int) : Except Fault Excerpt :=
  if column ≤ 20 then (spaces (column - 1)).map fun indent => ⟨line.take 40, indent⟩
  else .ok ⟨(line.drop (column - 20).toNat).take 40, 20⟩

def display (e : Excerpt) : String :=
  String.ofList (e.line ++ '\n' :: (List.replicate e.indent ' ' ++ ['^']))

end Excerpt

structure Place where
  pos : Int
  line : Nat
  column : Int
  /-- The excerpt, if there is one, unless it cannot be cut. -/
  excerpt : Except Fault (Option Excerpt)

namespace Place

/-- How many characters stand behind the last line feed. -/
def sinceLineFeed (t : Text) : Nat := (t.reverse.takeWhile (· != '\n')).length

/-- The excerpt comes from the line of that number in the wide sense of lines, and is left out if
there is no such line or it ends before the column. -/
def excerptOf (t : Text) (line : Nat) (column : Int) : Except Fault (Option Excerpt) :=
  match t.lines[line - 1]? with
  | some l => if column ≤ l.length then (Excerpt.cut l column).map some else .ok none
  | none => .ok none

/-- The place of a position. For a negative position the column is counted from the line feed before
the character that the position names from the end, and is not positive. -/
def of (t : Text) (pos : Int) : Place :=
  let pos := min pos t.length
  let before := t.upTo pos
  let line := before.count '\n' + 1
  let column := pos - (before.length - sinceLineFeed before - 1)
  { pos, line, column, excerpt := excerptOf t line column }

def display (p : Place) : Except Fault String := do
  let head := s!"At position {p.pos} (line {p.line}, column {p.column})"
  match ← p.excerpt with
  | none => return head
  | some e => return head ++ "\n" ++ e.display

end Place

end Backtrack
