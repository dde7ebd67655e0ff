import Backtrack.Checkpoint
import Backtrack.Grammar
import Backtrack.Parser.Run

/-!
# Sessions

A session works on one position of one source, in steps. It moves the position, runs parsers and
keeps checkpoints, which steps refer to by name; a name stands for the checkpoint that was last
created under it. A block is a step with a body of its own and a checkpoint that is settled, or
returned to, when the body ends.
-/

namespace Backtrack

inductive Step
  | run (g : Grammar)
  | current
  | seek (target : Int)
  | save (name : String)
  | commit (name : String)
  | rollback (name : String)
  | settle (name : String)
  | range (name : String)
  | block (name : String) (body : List Step) (raises : Bool)

/-- What a step answers. -/
inductive Answer
  | ran (outcome : Outcome)
  | misuse (m : Misuse)
  /-- The item at the position, or `none` at the end. -/
  | item (v : Option Value)
  | fault (e : Fault)
  | moved
  /-- A checkpoint after the step: the range from it to the position, and whether it has been
  committed. -/
  | checkpoint (start stop : Int) (committed : Bool)
  /-- The answers of the body, each with the position after it. -/
  | block (inner : List (Answer × Int)) (raised committed : Bool)
  | unknownName

/-- Checkpoints are kept in the order of creation, so that the number of one never changes, and
names newest first. -/
structure Session where
  pos : Int
  checkpoints : List Checkpoint := []
  names : List (String × Nat) := []
  events : List Event := []

namespace Session

def start (pos : Int) : Session := { pos }

/-- Creates a checkpoint at the position. -/
def save (s : Session) (name : String) : Session :=
  { s with
    checkpoints := s.checkpoints ++ [{ pos := s.pos }]
    names := (name, s.checkpoints.length) :: s.names }

def commit (s : Session) (i : Nat) : Session :=
  { s with checkpoints := s.checkpoints.modify i Checkpoint.commit }

/-- The answer of a step that touches checkpoint `i`. -/
def report (s : Session) (i : Nat) : Answer :=
  match s.checkpoints[i]? with
  | some c => .checkpoint c.pos s.pos c.committed
  | none => .unknownName

/-- A step on the checkpoint of a name. -/
def touch (s : Session) (name : String) (f : Session → Nat → Checkpoint → Session) :
    Session × Answer :=
  match s.names.lookup name with
  | none => (s, .unknownName)
  | some i =>
    match s.checkpoints[i]? with
    | none => (s, .unknownName)
    | some c =>
      let s' := f s i c
      (s', s'.report i)

/-- Builds a parser and runs it at the position. -/
def runGrammar (src : Sequence) (s : Session) (g : Grammar) : Session × Answer :=
  let build := g.build
  let s := { s with events := s.events ++ build.events }
  match build.result with
  | .error m => (s, .misuse m)
  | .ok p =>
    let r := p.run src s.pos
    ({ s with pos := r.pos }, .ran r.outcome)

def current (src : Sequence) (s : Session) : Answer :=
  match src.peek s.pos with
  | .ok v => .item v
  | .error e => .fault e

/-- Ends a block whose checkpoint has number `i`. -/
def leave (s : Session) (i : Nat) (raises : Bool) (inner : List (Answer × Int)) :
    Session × Answer :=
  match s.checkpoints[i]? with
  | none => (s, .unknownName)
  | some c => ({ s with pos := c.leave raises s.pos }, .block inner raises c.committed)

mutual

def exec (src : Sequence) : Step → Session → Session × Answer
  | .run g, s => s.runGrammar src g
  | .current, s => (s, s.current src)
  | .seek target, s => ({ s with pos := target }, .moved)
  | .save name, s =>
    let s' := s.save name
    (s', s'.report s.checkpoints.length)
  | .commit name, s => s.touch name fun s i _ => s.commit i
  | .rollback name, s => s.touch name fun s _ c => { s with pos := c.pos }
  | .settle name, s => s.touch name fun s _ c => { s with pos := c.settle s.pos }
  | .range name, s => s.touch name fun s _ _ => s
  | .block name body raises, s =>
    let (s', inner) := execAll src body (s.save name)
    s'.leave s.checkpoints.length raises inner
termination_by structural step => step

/-- The steps in order, with the position after each. -/
def execAll (src : Sequence) : List Step → Session → Session × List (Answer × Int)
  | [], s => (s, [])
  | step :: rest, s =>
    let (s₁, answer) := exec src step s
    let (s₂, answers) := execAll src rest s₁
    (s₂, (answer, s₁.pos) :: answers)
termination_by structural steps => steps

end

end Session

end Backtrack
