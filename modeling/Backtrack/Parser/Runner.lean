import Backtrack.Checkpoint
import Backtrack.Failure
import Backtrack.Token
import Backtrack.Trie.Walk

/-!
# Runners

A runner starts at a position of a source and ends with an outcome and a position. A failure may
leave the position moved, and a choice goes on to its next alternative only if it has not. A fault
ends the whole run. Combinators make runners out of runners and know nothing of how these are
written down.
-/

namespace Backtrack

inductive Outcome
  | success (r : Result)
  | failure (f : Failure)
  | fault (e : Fault)

structure Run where
  outcome : Outcome
  pos : Int

abbrev Runner := Int → Run

namespace Runner

/-- Takes one item that is accepted. `refuse` reports one that is not, and the null item at the end
of the input. -/
def token (src : Sequence) (accepts : Value → Bool) (refuse : Int → Value → Failure) : Runner :=
  fun pos =>
    match src.peek pos with
    | .error e => ⟨.fault e, pos⟩
    | .ok none => ⟨.failure (refuse pos .null), pos⟩
    | .ok (some v) =>
      if accepts v then ⟨.success (.spanning none pos (pos + 1) v), pos + 1⟩
      else ⟨.failure (refuse pos v), pos⟩

def always (value : Value) (type : Option String) : Runner :=
  fun pos => ⟨.success (.spanning type pos pos value), pos⟩

def never (msg : Option String) : Runner :=
  fun pos => ⟨.failure { pos, cause := .plain msg }, pos⟩

def eof (src : Sequence) : Runner :=
  fun pos =>
    match src.peek pos with
    | .error e => ⟨.fault e, pos⟩
    | .ok none => ⟨.success (.spanning (some "eof") pos pos .null), pos⟩
    | .ok (some v) => ⟨.failure { pos, cause := .expected "end of input" v }, pos⟩

/-- The rest of a sequence that began at `start`, where `last` is what has been yielded so far. -/
def sequenceFrom (start : Int) : List Runner → Result → Runner
  | [], last => fun pos => ⟨.success { last with range := some (start, pos) }, pos⟩
  | p :: rest, _ => fun pos =>
    match p pos with
    | ⟨.success r, next⟩ => sequenceFrom start rest r next
    | stopped => stopped

/-- Runs one after the other and yields what the last one does. -/
def sequence (ps : List Runner) : Runner :=
  fun pos => sequenceFrom pos ps { type := none, value := .null } pos

/-- The rest of a choice at `start`, with the notes on the alternatives that have failed. -/
def choiceFrom (start : Int) : List Runner → List Note → Run
  | [], notes => ⟨.failure { pos := start, cause := .plain Failure.noAlternative, notes }, start⟩
  | p :: rest, notes =>
    match p start with
    | ⟨.failure f, next⟩ =>
      if next = start then choiceFrom start rest (f.toNote :: notes) else ⟨.failure f, next⟩
    | decided => decided

/-- Yields what the first one does that succeeds or moves the position. -/
def choice (ps : List Runner) : Runner := fun pos => choiceFrom pos ps []

/-- Runs the body under a checkpoint, which is committed if the body succeeds. -/
def attempt (body : Runner) : Runner :=
  fun pos =>
    let c : Checkpoint := { pos }
    match body pos with
    | ⟨.success r, next⟩ => ⟨.success r, c.commit.leave false next⟩
    | ⟨.failure f, next⟩ => ⟨.failure f, c.leave false next⟩
    | ⟨.fault e, next⟩ => ⟨.fault e, c.leave true next⟩

/-- Takes the character at offset `index` of a literal. -/
def letter (src : Sequence) (l : Literal) (c : Char) (index : Nat) : Runner :=
  token src (fun v => v.sameChar (.text [c])) fun pos found =>
    { pos, cause := .mismatch l index (String.singleton c) found }

/-- The characters of a literal one by one, and then the literal as it was written. -/
def letters (src : Sequence) (l : Literal) : List Runner :=
  l.letters.zipIdx.map (fun x => letter src l x.1 x.2) ++
    [always l.written.toValue (some "string")]

def literal (src : Sequence) (l : Literal) : Runner := attempt (sequence (letters src l))

/-- Walks the trie under a checkpoint and comes back to the end of the longest word passed. -/
def trie (src : Sequence) (root : Trie) : Runner :=
  fun pos =>
    let c : Checkpoint := { pos }
    match (Trie.Walk.start root pos).run src with
    | .error e => ⟨.fault e, c.leave true pos⟩
    | .ok w =>
      match w.longest with
      | none =>
        ⟨.failure { pos := c.pos, cause := .plain Failure.noAlternative }, c.leave false w.pos⟩
      | some n =>
        let stop := c.pos + n
        ⟨.success (.spanning (some "trie") c.pos stop (.text (w.read.take n))),
          c.commit.leave false stop⟩

/-- Moves to a position, wherever it is, and succeeds or fails there. -/
def seek (target : Int) (succeeds : Bool) : Runner :=
  fun _ =>
    if succeeds then ⟨.success (.spanning (some "seek") target target (.int target)), target⟩
    else ⟨.failure { pos := target, cause := .plain "seek failed" }, target⟩

def raise (msg : String) : Runner := fun pos => ⟨.fault (.raised msg), pos⟩

section Turns

variable {p : Runner} {ps : List Runner} {start pos next : Int} {last r : Result} {f : Failure}
  {e : Fault} {notes : List Note}

@[simp] theorem sequenceFrom_nil :
    sequenceFrom start [] last pos = ⟨.success { last with range := some (start, pos) }, pos⟩ := rfl

theorem sequenceFrom_success (h : p pos = ⟨.success r, next⟩) :
    sequenceFrom start (p :: ps) last pos = sequenceFrom start ps r next := by
  simp only [sequenceFrom, h]

theorem sequenceFrom_failure (h : p pos = ⟨.failure f, next⟩) :
    sequenceFrom start (p :: ps) last pos = ⟨.failure f, next⟩ := by
  simp only [sequenceFrom, h]

theorem sequenceFrom_fault (h : p pos = ⟨.fault e, next⟩) :
    sequenceFrom start (p :: ps) last pos = ⟨.fault e, next⟩ := by
  simp only [sequenceFrom, h]

theorem choiceFrom_success (h : p start = ⟨.success r, next⟩) :
    choiceFrom start (p :: ps) notes = ⟨.success r, next⟩ := by
  simp only [choiceFrom, h]

theorem choiceFrom_unmoved (h : p start = ⟨.failure f, start⟩) :
    choiceFrom start (p :: ps) notes = choiceFrom start ps (f.toNote :: notes) := by
  simp only [choiceFrom, h, ↓reduceIte]

theorem choiceFrom_moved (h : p start = ⟨.failure f, next⟩) (hnext : next ≠ start) :
    choiceFrom start (p :: ps) notes = ⟨.failure f, next⟩ := by
  simp only [choiceFrom, h, hnext, ↓reduceIte]

theorem choiceFrom_fault (h : p start = ⟨.fault e, next⟩) :
    choiceFrom start (p :: ps) notes = ⟨.fault e, next⟩ := by
  simp only [choiceFrom, h]

theorem attempt_success (h : p pos = ⟨.success r, next⟩) :
    attempt p pos = ⟨.success r, next⟩ := by
  simp [attempt, h, Checkpoint.leave, Checkpoint.settle, Checkpoint.commit]

theorem attempt_failure (h : p pos = ⟨.failure f, next⟩) :
    attempt p pos = ⟨.failure f, pos⟩ := by
  simp [attempt, h, Checkpoint.leave, Checkpoint.settle]

theorem attempt_fault (h : p pos = ⟨.fault e, next⟩) :
    attempt p pos = ⟨.fault e, pos⟩ := by
  simp [attempt, h, Checkpoint.leave]

variable {src : Sequence} {root : Trie} {w : Trie.Walk}

theorem trie_fault (h : (Trie.Walk.start root pos).run src = .error e) :
    trie src root pos = ⟨.fault e, pos⟩ := by
  simp [trie, h, Checkpoint.leave]

theorem trie_failure (h : (Trie.Walk.start root pos).run src = .ok w) (hw : w.longest = none) :
    trie src root pos = ⟨.failure { pos, cause := .plain Failure.noAlternative }, pos⟩ := by
  simp [trie, h, hw, Checkpoint.leave, Checkpoint.settle]

theorem trie_success {n : Nat} (h : (Trie.Walk.start root pos).run src = .ok w)
    (hw : w.longest = some n) :
    trie src root pos =
      ⟨.success (.spanning (some "trie") pos (pos + n) (.text (w.read.take n))), pos + n⟩ := by
  simp [trie, h, hw, Checkpoint.leave, Checkpoint.settle, Checkpoint.commit]

end Turns

end Runner

end Backtrack
