import Backtrack.Literal

/-!
# Failures

A failure is an answer of a parser. It says where and why nothing could be parsed and carries notes
about other positions. Notes are kept newest first and shown oldest first.
-/

namespace Backtrack

/-- A remark about a position. -/
structure Note where
  pos : Int
  msg : Option String := none

def Note.display (n : Note) : String :=
  let msg := match n.msg with
    | none => "None"
    | some msg => String.ofList (Text.quoted msg.toList)
  s!"PosNote({n.pos}, {msg})"

/-- The item that was found where another was expected. The null item stands for the end of the
input, in messages too. -/
def describeFound : Value → String
  | .null => "end of input"
  | v => String.ofList v.unbox.display

theorem describeFound_item {v : Value} (h : v ≠ .null) :
    describeFound v = String.ofList v.unbox.display := by
  cases v with
  | null => exact absurd rfl h
  | _ => rfl

/-- Why a parser failed. -/
inductive Cause
  | plain (msg : Option String)
  | expected (what : String) (found : Value)
  /-- The character of a literal at offset `index` did not match. -/
  | mismatch (literal : Literal) (index : Int) (what : String) (found : Value)

namespace Cause

def message : Cause → Option String
  | .plain msg => msg
  | .expected what found => some s!"Expected:{what} Found:{describeFound found}"
  | .mismatch literal index what found =>
    let place := s!"In string:'{String.ofList literal.letters}' at index:{index}"
    some s!"{place}, Expected:{what} Found:{describeFound found}"

/-- The name of the kind of failure. -/
def kind : Cause → String
  | .plain _ => "ParseFailure"
  | .expected .. => "ExpectError"
  | .mismatch .. => "StringError"

/-- What was expected, for a failure that expected something. -/
def expected? : Cause → Option String
  | .plain _ => none
  | .expected what _ => some what
  | .mismatch _ _ what _ => some what

/-- The offset in the literal, for a literal that failed. -/
def index? : Cause → Option Int
  | .mismatch _ index _ _ => some index
  | _ => none

/-- The item found, for a failure that expected another. -/
def found? : Cause → Option Value
  | .plain _ => none
  | .expected _ found => some found
  | .mismatch _ _ _ found => some found

end Cause

structure Failure where
  pos : Int
  cause : Cause
  notes : List Note := []

namespace Failure

def message (f : Failure) : Option String := f.cause.message

def display (f : Failure) : String :=
  let reason := f.message.getD "None"
  s!"<{f.cause.kind} at {f.pos}: {reason}>"

/-- The position and message of a failure as a note. -/
def toNote (f : Failure) : Note := ⟨f.pos, f.message⟩

def noAlternative : String := "No alternative matched."

end Failure

end Backtrack
