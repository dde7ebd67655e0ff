import Backtrack.Event
import Backtrack.Parser.Run
import Backtrack.ParseError

/-!
# Parsing

A parse is a run whose failure is turned into an error.
-/

namespace Backtrack

/-- Why a parse yields no result. -/
inductive Abort
  | error (e : ParseError)
  | fault (e : Fault)

/-- What a failure ends a parse with: its error, or the fault of forming that. -/
def Abort.ofFailure (f : Failure) (src : Sequence) : Abort :=
  match f.toError src with
  | .ok e => .error e
  | .error e => .fault e

theorem Abort.ofFailure_of_ok {f : Failure} {src : Sequence} {e : ParseError}
    (h : f.toError src = .ok e) : ofFailure f src = .error e := by
  rw [ofFailure, h]

theorem Abort.ofFailure_of_error {f : Failure} {src : Sequence} {e : Fault}
    (h : f.toError src = .error e) : ofFailure f src = .fault e := by
  rw [ofFailure, h]

structure Parse where
  outcome : Except Abort Result
  events : List Event

/-- Runs a parser on a source. A failure is recorded under the name of the parser and becomes an
error. -/
def Parser.parse (p : Parser) (src : Sequence) (pos : Int) : Parse :=
  match (p.run src pos).outcome with
  | .success r => ⟨.ok r, []⟩
  | .fault e => ⟨.error (.fault e), []⟩
  | .failure f =>
    ⟨.error (.ofFailure f src), [.parseFailed (p.name.getD "parser") f.pos f.message]⟩

namespace Parser

variable {p : Parser} {src : Sequence} {pos next : Int}

theorem parse_success {r : Result} (h : p.run src pos = ⟨.success r, next⟩) :
    p.parse src pos = ⟨.ok r, []⟩ := by
  rw [parse, h]

theorem parse_failure {f : Failure} (h : p.run src pos = ⟨.failure f, next⟩) :
    p.parse src pos =
      ⟨.error (.ofFailure f src), [.parseFailed (p.name.getD "parser") f.pos f.message]⟩ := by
  rw [parse, h]

end Parser

end Backtrack
