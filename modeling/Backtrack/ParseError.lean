import Backtrack.Failure
import Backtrack.Place

/-!
# Parse errors

The error that a failed parse ends with. It keeps the text of the source and rendered notes: first
the place of the failure itself, then one for each note of the failure, oldest first.
-/

namespace Backtrack

structure ParseError where
  text : Text
  pos : Int
  msg : Option String
  notes : List String

namespace ParseError

/-- A message, if there is one, above a place. -/
def renderNote (text : Text) (n : Note) : Except Fault String := do
  let place ← (Place.of text n.pos).display
  match n.msg with
  | none => return place
  | some msg => return msg ++ "\n" ++ place

def appendNote (e : ParseError) (n : Note) : Except Fault ParseError := do
  let note ← renderNote e.text n
  return { e with notes := e.notes ++ [note] }

/-- The text of the error, empty without a message. -/
def display (e : ParseError) : String := e.msg.getD ""

end ParseError

/-- What the error of a failure tells: its own place, and then its notes, oldest first. -/
def Failure.reported (f : Failure) : List Note := ⟨f.pos, none⟩ :: f.notes.reverse

/-- The error that reports a failure on a source, unless one of its notes cannot be rendered. -/
def Failure.toError (f : Failure) (src : Sequence) : Except Fault ParseError :=
  f.reported.foldlM ParseError.appendNote
    { text := src.flatten, pos := f.pos, msg := f.message, notes := [] }

/-- Notes that are appended come last and in order, and nothing else changes. The first one that
cannot be rendered is the fault of all. -/
theorem ParseError.foldlM_appendNote (ns : List Note) (e : ParseError) :
    ns.foldlM ParseError.appendNote e =
      (ns.mapM (renderNote e.text)).map fun shown => { e with notes := e.notes ++ shown } := by
  induction ns generalizing e with
  | nil => simp [pure, Except.pure, Except.map]
  | cons n ns ih =>
    rw [List.foldlM_cons, List.mapM_cons, appendNote]
    cases hn : renderNote e.text n with
    | error fault => rfl
    | ok note =>
      show ns.foldlM appendNote { e with notes := e.notes ++ [note] } = _
      rw [ih]
      cases ns.mapM (renderNote e.text) with
      | error fault => rfl
      | ok notes => simp [bind, Except.bind, Except.map, pure, Except.pure]

/-- The error written out. -/
theorem Failure.toError_eq (f : Failure) (src : Sequence) :
    f.toError src = (f.reported.mapM (ParseError.renderNote src.flatten)).map fun notes =>
      { text := src.flatten, pos := f.pos, msg := f.message, notes } := by
  rw [toError, ParseError.foldlM_appendNote]
  simp only [List.nil_append]

end Backtrack
