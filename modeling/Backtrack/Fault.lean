/-!
# Faults

What stops a run without an answer of the parser: a position before the first item, or an error that
a parser raises on purpose. A place that lies too far before the text cannot be shown, and stops the
report of a failure.
-/

namespace Backtrack

/-- Indices and counts are signed words of 64 bits, so the least one is the negative of this. -/
def indexLimit : Nat := Nat.pow 2 63

inductive Fault
  /-- A position before the first character of a text. -/
  | beforeText
  /-- A position before the first item of a list. -/
  | beforeList
  /-- A position so far before the first item that it is no index at all. -/
  | noIndex
  /-- A number of spaces so far below zero that it is no count at all. -/
  | noCount
  | raised (msg : String)
  deriving DecidableEq

def Fault.message : Fault → String
  | .beforeText => "string index out of range"
  | .beforeList => "list index out of range"
  | .noIndex | .noCount => "cannot fit 'int' into an index-sized integer"
  | .raised msg => msg

end Backtrack
