/-!
# Ranges of code points

Character classes that no formula describes are tables of closed ranges in ascending order.
-/

namespace Backtrack

/-- Closed ranges of code points, in ascending order and apart from each other. -/
abbrev CodeRanges := List (Nat × Nat)

/-- Looks for the first range that does not end before `n`; in an ascending table no later range
can hold `n`. -/
def CodeRanges.contains : CodeRanges → Nat → Bool
  | [], _ => false
  | (first, last) :: rest, n => if n ≤ last then first ≤ n else contains rest n

end Backtrack
