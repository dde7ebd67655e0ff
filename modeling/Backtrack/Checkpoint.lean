/-!
# Checkpoints

A checkpoint remembers a position. It can be returned to at any time, and settling returns to it
unless it has been committed.
-/

namespace Backtrack

structure Checkpoint where
  pos : Int
  committed : Bool := false

namespace Checkpoint

def commit (c : Checkpoint) : Checkpoint := { c with committed := true }

/-- The position after settling at `pos`. -/
def settle (c : Checkpoint) (pos : Int) : Int := if c.committed then pos else c.pos

/-- The position after a block that the checkpoint guards: a block that raises goes back even if it
has been committed. -/
def leave (c : Checkpoint) (raises : Bool) (pos : Int) : Int :=
  if raises then c.pos else c.settle pos

end Checkpoint

end Backtrack
