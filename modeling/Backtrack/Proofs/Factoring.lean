import Backtrack.Proofs.Splicing

/-!
# Left factoring

A beginning that all alternatives have in common can be taken out in front of the choice. With it
inside, every alternative goes back to the start and reads the beginning again; in front, they go back
to where it ended. It ends there each time, so the same alternative is taken. What a failure says, and
where a run is that fails or faults, may differ.
-/

namespace Backtrack

/-- Both runs succeed with the same result at the same place, or both fail, or both end with the same
fault. -/
inductive Run.Concurs : Run → Run → Prop
  | success (res : Result) (pos : Int) : Concurs ⟨.success res, pos⟩ ⟨.success res, pos⟩
  | failure (f f' : Failure) (pos pos' : Int) : Concurs ⟨.failure f, pos⟩ ⟨.failure f', pos'⟩
  | fault (e : Fault) (pos pos' : Int) : Concurs ⟨.fault e, pos⟩ ⟨.fault e, pos'⟩

namespace Runner

open Run (Concurs)

variable {a : Runner} {start mid : Int} {r : Result}

/-- Each alternative is tried from the place where the beginning ends, in both forms. -/
theorem concurs_choiceFrom (ha : a start = ⟨.success r, mid⟩) (bs : List Runner) :
    ∀ notes notes' : List Note,
      Concurs (choiceFrom start (bs.map fun b => attempt (sequence [a, b])) notes)
        ((choiceFrom mid (bs.map attempt) notes').andThen (sequenceFrom start [])) := by
  induction bs with
  | nil =>
    intro notes notes'
    exact .failure _ _ start mid
  | cons b bs ih =>
    intro notes notes'
    have hpair : sequence [a, b] start = (b mid).andThen (sequenceFrom start []) := by
      rw [sequence, sequenceFrom_success ha, sequenceFrom_cons]
    rw [List.map_cons, List.map_cons]
    rcases hb : b mid with ⟨outcome, next⟩
    rw [hb] at hpair
    cases outcome with
    | success res =>
      rw [choiceFrom_success (attempt_success hpair), choiceFrom_success (attempt_success hb)]
      exact .success _ next
    | failure f =>
      rw [choiceFrom_unmoved (attempt_failure hpair), choiceFrom_unmoved (attempt_failure hb)]
      exact ih _ _
    | fault e =>
      rw [choiceFrom_fault (attempt_fault hpair), choiceFrom_fault (attempt_fault hb)]
      exact .fault e start mid

/-- At least one alternative is needed: without any the beginning would be read in one form only, and
could fault. -/
theorem concurs_factored (a b : Runner) (bs : List Runner) (start : Int) :
    Concurs (choice ((b :: bs).map fun b => attempt (sequence [a, b])) start)
      (sequence [a, choice ((b :: bs).map attempt)] start) := by
  rcases ha : a start with ⟨outcome, mid⟩
  cases outcome with
  | success r =>
    rw [sequence, sequenceFrom_success ha, sequenceFrom_cons]
    exact concurs_choiceFrom ha (b :: bs) [] []
  | failure f =>
    have hrefuses : ∀ p ∈ (b :: bs).map fun b => attempt (sequence [a, b]), Refuses start p := by
      refine List.forall_mem_map.mpr ?_
      intro b' _
      exact ⟨f, attempt_failure (sequenceFrom_failure ha)⟩
    obtain ⟨f', hf'⟩ := refuses_choice hrefuses
    rw [hf', sequence, sequenceFrom_failure ha]
    exact .failure f' f start mid
  | fault e =>
    have hfirst : attempt (sequence [a, b]) start = ⟨.fault e, start⟩ :=
      attempt_fault (sequenceFrom_fault ha)
    rw [List.map_cons, choice, choiceFrom_fault hfirst, sequence, sequenceFrom_fault ha]
    exact .fault e start mid

end Runner

/-- Attempts that all begin with `a` run, up to the details of failures, as `a` before a choice of
attempts. -/
theorem left_factoring_sound (a b : Parser) (bs : List Parser) (src : Sequence) (start : Int) :
    Run.Concurs
      ((Parser.choice ((b :: bs).map fun b => .attempt (.sequence a [b]))).run src start)
      ((Parser.sequence a [.choice ((b :: bs).map .attempt)]).run src start) := by
  have hinside : ((b :: bs).map fun b => Parser.attempt (.sequence a [b])).map (Parser.run src) =
      ((b :: bs).map (Parser.run src)).map fun r =>
        Runner.attempt (Runner.sequence [a.run src, r]) := by
    rw [List.map_map, List.map_map]
    rfl
  have hbehind : [a, .choice ((b :: bs).map .attempt)].map (Parser.run src) =
      [a.run src, Runner.choice (((b :: bs).map (Parser.run src)).map Runner.attempt)] := by
    rw [List.map_cons, List.map_singleton, Parser.run_choice, List.map_map, List.map_map]
    rfl
  rw [Parser.run_choice, hinside, Parser.run_sequence, hbehind]
  exact Runner.concurs_factored (a.run src) (b.run src) (bs.map (Parser.run src)) start

end Backtrack
