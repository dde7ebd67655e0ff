import Backtrack.Parser.Basic
import Backtrack.Parser.Runner

/-!
# Running a parser

The runner that an expression stands for.
-/

namespace Backtrack

/-- The failure of a parser of one item, at the item it refuses. -/
def Report.failure (pos : Int) (found : Value) : Report → Failure
  | .expect what => { pos, cause := .expected what found }
  | .plain msg => { pos, cause := .plain msg }

namespace Parser

mutual

def run (src : Sequence) : Parser → Runner
  | .token test report => .token src test.accepts fun pos found => report.failure pos found
  | .always value type => .always value type
  | .never msg => .never msg
  | .eof => .eof src
  | .literal l => .literal src l
  | .trie words => .trie src words
  | .sequence first rest => .sequence (run src first :: runAll src rest)
  | .choice alternatives => .choice (runAll src alternatives)
  | .attempt body => .attempt (run src body)
  | .label _ body => run src body
  | .anonymous body => run src body
  | .seek target succeeds => .seek target succeeds
  | .raise msg => .raise msg
termination_by structural p => p

def runAll (src : Sequence) : List Parser → List Runner
  | [] => []
  | p :: rest => run src p :: runAll src rest
termination_by structural ps => ps

end

theorem runAll_eq_map (src : Sequence) (ps : List Parser) : runAll src ps = ps.map (run src) := by
  induction ps with
  | nil => rfl
  | cons p rest ih => rw [runAll, ih, List.map_cons]

theorem run_sequence (src : Sequence) (first : Parser) (rest : List Parser) :
    (sequence first rest).run src = .sequence ((first :: rest).map (run src)) := by
  rw [run, runAll_eq_map, List.map_cons]

theorem run_choice (src : Sequence) (alternatives : List Parser) :
    (choice alternatives).run src = .choice (alternatives.map (run src)) := by
  rw [run, runAll_eq_map]

end Parser

end Backtrack
