import Backtrack.Parser.Run

/-!
# Parsers without effects

Seeking and raising stand for code of a caller. Many laws of runs hold for the parsers that lack one
of the two, or both.
-/

namespace Backtrack

inductive Effect
  | seek
  | raise
  deriving DecidableEq

namespace Parser

mutual

/-- No part of the parser has the effect. -/
def lacks (e : Effect) : Parser → Bool
  | .sequence first rest => lacks e first && allLack e rest
  | .choice alternatives => allLack e alternatives
  | .attempt body => lacks e body
  | .label _ body => lacks e body
  | .anonymous body => lacks e body
  | .seek _ _ => e != .seek
  | .raise _ => e != .raise
  | _ => true
termination_by structural p => p

def allLack (e : Effect) : List Parser → Bool
  | [] => true
  | p :: rest => lacks e p && allLack e rest
termination_by structural ps => ps

end

theorem allLack_iff {e : Effect} {ps : List Parser} :
    allLack e ps = true ↔ ∀ p ∈ ps, p.lacks e = true := by
  induction ps with
  | nil => simp [allLack]
  | cons p rest ih => simp [allLack, ih]

theorem lacks_sequence {e : Effect} {first : Parser} {rest : List Parser} :
    (sequence first rest).lacks e = true ↔ ∀ p ∈ first :: rest, p.lacks e = true := by
  simp [lacks, allLack_iff]

theorem lacks_choice {e : Effect} {alternatives : List Parser} :
    (choice alternatives).lacks e = true ↔ ∀ p ∈ alternatives, p.lacks e = true := by
  rw [lacks, allLack_iff]

end Parser

end Backtrack
