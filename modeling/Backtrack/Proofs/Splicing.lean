import Backtrack.Proofs.Decision

/-!
# Parts spliced in

A sequence that is a part of a sequence may be replaced by its own parts, as long as there are some: a
part that stops, stops both levels, and only the outermost level keeps the range it writes. A choice
that is an alternative of a choice may be replaced by its own alternatives: what decides the inner one
decides the outer one, too, since both begin at one place. Only notes may differ, which the inner
choice would have summed up in one.
-/

namespace Backtrack

/-- The failure of a choice that none of its alternatives decides. -/
def Runner.undecided (start : Int) (notes : List Note) : Run :=
  ⟨.failure { pos := start, cause := .plain Failure.noAlternative, notes }, start⟩

namespace Run

/-- Goes on where a success ended. -/
def andThen (r : Run) (next : Result → Runner) : Run :=
  match r with
  | ⟨.success res, pos⟩ => next res pos
  | stopped => stopped

/-- The same run, or the failure at `start` of two choices that nothing decides, whatever their
notes. -/
inductive SameButNotes (start : Int) : Run → Run → Prop
  | same (r : Run) : SameButNotes start r r
  | undecided (notes notes' : List Note) :
    SameButNotes start (Runner.undecided start notes) (Runner.undecided start notes')

theorem SameButNotes.trans {start : Int} {r s t : Run} (h : SameButNotes start r s)
    (h' : SameButNotes start s t) : SameButNotes start r t := by
  cases h with
  | same => exact h'
  | undecided notes notes' =>
    cases h' with
    | same => exact .undecided notes notes'
    | undecided _ notes'' => exact .undecided notes notes''

end Run

namespace Runner

open Run (SameButNotes)

theorem sequenceFrom_cons (start : Int) (p : Runner) (ps : List Runner) (last : Result) (pos : Int) :
    sequenceFrom start (p :: ps) last pos = (p pos).andThen (sequenceFrom start ps) := by
  rcases hrun : p pos with ⟨outcome, next⟩
  cases outcome with
  | success r => exact sequenceFrom_success hrun
  | failure f => exact sequenceFrom_failure hrun
  | fault e => exact sequenceFrom_fault hrun

/-- The range of what was yielded last is never read. -/
theorem sequenceFrom_range (start : Int) (ps : List Runner) (last : Result)
    (range : Option (Int × Int)) (pos : Int) :
    sequenceFrom start ps { last with range } pos = sequenceFrom start ps last pos := by
  cases ps with
  | nil => rfl
  | cons p ps => rw [sequenceFrom_cons, sequenceFrom_cons]

/-- The first parts may be run as a sequence of their own, from wherever its range is told. -/
theorem sequenceFrom_append (start inner : Int) (ps qs : List Runner) :
    ∀ (last : Result) (pos : Int), sequenceFrom start (ps ++ qs) last pos =
      (sequenceFrom inner ps last pos).andThen (sequenceFrom start qs) := by
  induction ps with
  | nil =>
    intro last pos
    exact (sequenceFrom_range start qs last _ pos).symm
  | cons p ps ih =>
    intro last pos
    rw [List.cons_append, sequenceFrom_cons, sequenceFrom_cons]
    rcases p pos with ⟨outcome, next⟩
    cases outcome with
    | success r => exact ih r next
    | failure f => rfl
    | fault e => rfl

/-- What was yielded last matters at the end only. -/
theorem sequenceFrom_splice (start : Int) {inner : List Runner} (hinner : inner ≠ [])
    (behind : List Runner) (last : Result) (pos : Int) :
    sequenceFrom start (sequence inner :: behind) last pos =
      sequenceFrom start (inner ++ behind) last pos := by
  obtain ⟨p, ps, rfl⟩ := List.exists_cons_of_ne_nil hinner
  rw [sequenceFrom_cons, sequence, ← sequenceFrom_append, List.cons_append, sequenceFrom_cons,
    sequenceFrom_cons]

theorem sequence_splice (before : List Runner) {inner : List Runner} (hinner : inner ≠ [])
    (behind : List Runner) :
    sequence (before ++ sequence inner :: behind) = sequence (before ++ (inner ++ behind)) := by
  funext pos
  rw [sequence, sequence, sequenceFrom_append pos pos, sequenceFrom_append pos pos]
  congr 1
  funext last next
  exact sequenceFrom_splice pos hinner behind last next

/-- Alternatives that begin alike do what the rest of them does, and their notes change nothing. -/
theorem choiceFrom_append_congr {start : Int} {ps qs : List Runner}
    (h : ∀ notes notes', SameButNotes start (choiceFrom start ps notes) (choiceFrom start qs notes'))
    (before : List Runner) :
    ∀ notes notes' : List Note, SameButNotes start (choiceFrom start (before ++ ps) notes)
      (choiceFrom start (before ++ qs) notes') := by
  induction before with
  | nil => exact h
  | cons p before ih =>
    intro notes notes'
    rw [List.cons_append, List.cons_append]
    by_cases hp : Refuses start p
    · obtain ⟨f, hf⟩ := hp
      rw [choiceFrom_unmoved hf, choiceFrom_unmoved hf]
      exact ih _ _
    · have hdecides := decides_iff_not_refuses.mpr hp
      rw [choiceFrom_of_decides hdecides, choiceFrom_of_decides hdecides]
      exact .same _

theorem choiceFrom_same (start : Int) (ps : List Runner) (notes notes' : List Note) :
    SameButNotes start (choiceFrom start ps notes) (choiceFrom start ps notes') := by
  have hnil : ∀ notes notes' : List Note, SameButNotes start (choiceFrom start (ps ++ []) notes)
      (choiceFrom start (ps ++ []) notes') := choiceFrom_append_congr .undecided ps
  rw [List.append_nil] at hnil
  exact hnil notes notes'

/-- What decides the inner choice decides the outer one. If nothing does, the inner choice is one more
alternative that refuses. -/
theorem choiceFrom_splice (start : Int) (inner behind : List Runner) (notes notes' : List Note) :
    SameButNotes start (choiceFrom start (choice inner :: behind) notes)
      (choiceFrom start (inner ++ behind) notes') := by
  rcases choice_cases inner start with
    ⟨before, p, rest, rfl, hbefore, hp, hinner⟩ | ⟨fs, hall, hinner⟩
  · have hdecides := decides_iff_not_refuses.mpr hp
    have hchoice : Decides start (choice (before ++ p :: rest)) := by
      rw [Decides, hinner]
      exact hdecides
    rw [choiceFrom_of_decides hchoice, hinner, List.append_assoc, List.cons_append,
      choiceFrom_eq_first hbefore hdecides]
    exact .same _
  · obtain ⟨notes'', happend⟩ := choiceFrom_append (refuses_of_forall₂ hall) behind notes'
    rw [choiceFrom_unmoved hinner, happend]
    exact choiceFrom_same start behind _ _

theorem choice_splice (before inner behind : List Runner) (start : Int) :
    SameButNotes start (choice (before ++ choice inner :: behind) start)
      (choice (before ++ (inner ++ behind)) start) :=
  choiceFrom_append_congr (choiceFrom_splice start inner behind) before [] []

end Runner

end Backtrack
