import Backtrack.Parser.Run
import Mathlib.Data.List.Forall2

/-!
# What decides a sequence and a choice

A sequence ends as its first part does that does not succeed. A choice ends as its first alternative
does that succeeds, faults or moves the position; the alternatives before it have no part in the
answer, and those behind it are not run. If no alternative is of that kind, the choice fails at the
start, with a note for each.
-/

namespace Backtrack

def Run.Succeeds (r : Run) : Prop := ∃ res, r.outcome = .success res

theorem Run.succeeds_success (res : Result) (pos : Int) : Run.Succeeds ⟨.success res, pos⟩ :=
  ⟨res, rfl⟩

theorem Run.not_succeeds_failure (f : Failure) (pos : Int) : ¬ Run.Succeeds ⟨.failure f, pos⟩ := by
  rintro ⟨res, h⟩
  cases h

theorem Run.not_succeeds_fault (e : Fault) (pos : Int) : ¬ Run.Succeeds ⟨.fault e, pos⟩ := by
  rintro ⟨res, h⟩
  cases h

namespace Runner

/-- The runners succeed one behind the other, from the first position to the second. -/
inductive Passes : List Runner → Int → Int → Prop
  | nil (pos : Int) : Passes [] pos pos
  | cons {p : Runner} {ps : List Runner} {pos next stop : Int} {r : Result}
      (h : p pos = ⟨.success r, next⟩) (hps : Passes ps next stop) : Passes (p :: ps) pos stop

theorem passes_nil {pos stop : Int} : Passes [] pos stop ↔ stop = pos := by
  constructor
  · intro h
    cases h
    rfl
  · intro h
    subst h
    exact .nil _

theorem passes_cons {p : Runner} {ps : List Runner} {pos stop : Int} :
    Passes (p :: ps) pos stop ↔ ∃ r next, p pos = ⟨.success r, next⟩ ∧ Passes ps next stop := by
  constructor
  · intro h
    cases h with
    | cons h hps => exact ⟨_, _, h, hps⟩
  · intro h
    obtain ⟨r, next, h, hps⟩ := h
    exact .cons h hps

/-- Either all parts succeed, or the sequence ends as the first part does that does not. -/
theorem sequenceFrom_cases (start : Int) (ps : List Runner) : ∀ (pos : Int) (last : Result),
    (∃ stop res, Passes ps pos stop ∧ sequenceFrom start ps last pos = ⟨.success res, stop⟩) ∨
    ∃ before p behind mid, ps = before ++ p :: behind ∧ Passes before pos mid ∧
      ¬ (p mid).Succeeds ∧ sequenceFrom start ps last pos = p mid := by
  induction ps with
  | nil =>
    intro pos last
    exact .inl ⟨pos, _, .nil pos, rfl⟩
  | cons p ps ih =>
    intro pos last
    rcases hrun : p pos with ⟨outcome, next⟩
    cases outcome with
    | success r =>
      rw [sequenceFrom_success hrun]
      rcases ih next r with
        ⟨stop, res, hpass, hend⟩ | ⟨before, q, behind, mid, rfl, hpass, hq, hend⟩
      · exact .inl ⟨stop, res, .cons hrun hpass, hend⟩
      · exact .inr ⟨p :: before, q, behind, mid, rfl, .cons hrun hpass, hq, hend⟩
    | failure f =>
      rw [sequenceFrom_failure hrun]
      refine .inr ⟨[], p, ps, pos, rfl, .nil pos, ?_, hrun.symm⟩
      rw [hrun]
      exact Run.not_succeeds_failure f next
    | fault e =>
      rw [sequenceFrom_fault hrun]
      refine .inr ⟨[], p, ps, pos, rfl, .nil pos, ?_, hrun.symm⟩
      rw [hrun]
      exact Run.not_succeeds_fault e next

/-- The runner fails at the position and does not leave it. -/
def Refuses (start : Int) (p : Runner) : Prop := ∃ f, p start = ⟨.failure f, start⟩

theorem Refuses.not_succeeds {start : Int} {p : Runner} (h : Refuses start p) :
    ¬ (p start).Succeeds := by
  obtain ⟨f, hf⟩ := h
  rw [hf]
  exact Run.not_succeeds_failure f start

theorem refuses_of_forall₂ {start : Int} {ps : List Runner} {fs : List Failure}
    (h : List.Forall₂ (fun p f => p start = ⟨.failure f, start⟩) ps fs) :
    ∀ p ∈ ps, Refuses start p := by
  induction h with
  | nil => exact fun _ hp => by cases hp
  | @cons p f ps fs hf _ ih => exact List.forall_mem_cons.mpr ⟨⟨f, hf⟩, ih⟩

/-- The runner succeeds, faults or leaves the position. -/
def Decides (start : Int) (p : Runner) : Prop :=
  (p start).Succeeds ∨ (∃ e, (p start).outcome = .fault e) ∨ (p start).pos ≠ start

/-- There is nothing else that a run can do. -/
theorem decides_iff_not_refuses {start : Int} {p : Runner} :
    Decides start p ↔ ¬ Refuses start p := by
  constructor
  · rintro hdecides ⟨f, hf⟩
    rw [Decides, hf] at hdecides
    rcases hdecides with hsucceeds | ⟨e, he⟩ | hmoved
    · exact Run.not_succeeds_failure f start hsucceeds
    · cases he
    · exact hmoved rfl
  · intro hrefuses
    rcases hrun : p start with ⟨outcome, next⟩
    rw [Decides, hrun]
    cases outcome with
    | success r => exact .inl (Run.succeeds_success r next)
    | failure f => exact .inr (.inr fun hnext => hrefuses ⟨f, hnext ▸ hrun⟩)
    | fault e => exact .inr (.inl ⟨e, rfl⟩)

theorem choiceFrom_of_decides {start : Int} {p : Runner} (hp : Decides start p) (ps : List Runner)
    (notes : List Note) : choiceFrom start (p :: ps) notes = p start := by
  rcases hrun : p start with ⟨outcome, next⟩
  cases outcome with
  | success r => exact choiceFrom_success hrun
  | failure f =>
    have hmoved : next ≠ start := fun hnext => decides_iff_not_refuses.mp hp ⟨f, hnext ▸ hrun⟩
    exact choiceFrom_moved hrun hmoved
  | fault e => exact choiceFrom_fault hrun

/-- The first alternative that does not refuse decides. If all of them do, the choice fails with
their notes, the last one first. -/
theorem choiceFrom_cases (start : Int) (ps : List Runner) : ∀ notes : List Note,
    (∃ before p behind, ps = before ++ p :: behind ∧ (∀ q ∈ before, Refuses start q) ∧
      ¬ Refuses start p ∧ choiceFrom start ps notes = p start) ∨
    ∃ fs : List Failure, List.Forall₂ (fun p f => p start = ⟨.failure f, start⟩) ps fs ∧
      choiceFrom start ps notes =
        ⟨.failure { pos := start, cause := .plain Failure.noAlternative,
                    notes := (fs.map Failure.toNote).reverse ++ notes }, start⟩ := by
  induction ps with
  | nil =>
    intro notes
    exact .inr ⟨[], .nil, rfl⟩
  | cons p ps ih =>
    intro notes
    by_cases hp : Refuses start p
    · obtain ⟨f, hf⟩ := hp
      rw [choiceFrom_unmoved hf]
      rcases ih (f.toNote :: notes) with
        ⟨before, q, behind, rfl, hbefore, hq, hend⟩ | ⟨fs, hall, hend⟩
      · refine .inl ⟨p :: before, q, behind, rfl, ?_, hq, hend⟩
        exact List.forall_mem_cons.mpr ⟨⟨f, hf⟩, hbefore⟩
      · refine .inr ⟨f :: fs, .cons hf hall, ?_⟩
        rw [hend, List.map_cons, List.reverse_cons, List.append_assoc, List.singleton_append]
    · refine .inl ⟨[], p, ps, rfl, by simp, hp, ?_⟩
      exact choiceFrom_of_decides (decides_iff_not_refuses.mpr hp) ps notes

/-- Alternatives that refuse leave nothing but their notes. -/
theorem choiceFrom_append {start : Int} {before : List Runner} (h : ∀ q ∈ before, Refuses start q)
    (ps : List Runner) : ∀ notes : List Note,
      ∃ notes', choiceFrom start (before ++ ps) notes = choiceFrom start ps notes' := by
  induction before with
  | nil => exact fun notes => ⟨notes, rfl⟩
  | cons q before ih =>
    intro notes
    obtain ⟨⟨f, hf⟩, hbefore⟩ := List.forall_mem_cons.mp h
    rw [List.cons_append, choiceFrom_unmoved hf]
    exact ih hbefore (f.toNote :: notes)

theorem refuses_choice {start : Int} {ps : List Runner} (h : ∀ p ∈ ps, Refuses start p) :
    Refuses start (choice ps) := by
  obtain ⟨notes, happend⟩ := choiceFrom_append h [] []
  rw [List.append_nil] at happend
  exact ⟨_, happend⟩

/-- Whatever stands behind the alternative that decides, its run is the answer. -/
theorem choiceFrom_eq_first {start : Int} {before : List Runner} {p : Runner}
    (hbefore : ∀ q ∈ before, Refuses start q) (hp : Decides start p) (behind : List Runner)
    (notes : List Note) : choiceFrom start (before ++ p :: behind) notes = p start := by
  obtain ⟨notes', happend⟩ := choiceFrom_append hbefore (p :: behind) notes
  rw [happend]
  exact choiceFrom_of_decides hp behind notes'

theorem sequence_cases (ps : List Runner) (start : Int) :
    (∃ stop res, Passes ps start stop ∧ sequence ps start = ⟨.success res, stop⟩) ∨
    ∃ before p behind mid, ps = before ++ p :: behind ∧ Passes before start mid ∧
      ¬ (p mid).Succeeds ∧ sequence ps start = p mid :=
  sequenceFrom_cases start ps start _

theorem choice_cases (ps : List Runner) (start : Int) :
    (∃ before p behind, ps = before ++ p :: behind ∧ (∀ q ∈ before, Refuses start q) ∧
      ¬ Refuses start p ∧ choice ps start = p start) ∨
    ∃ fs : List Failure, List.Forall₂ (fun p f => p start = ⟨.failure f, start⟩) ps fs ∧
      choice ps start =
        ⟨.failure { pos := start, cause := .plain Failure.noAlternative,
                    notes := (fs.map Failure.toNote).reverse }, start⟩ := by
  have hcases := choiceFrom_cases start ps []
  simp only [List.append_nil] at hcases
  exact hcases

end Runner

namespace Parser

open Runner (Passes Refuses Decides)

variable {src : Sequence} {start : Int}

theorem map_run_eq_append_cons {ps : List Parser} {before behind : List Runner} {r : Runner} :
    ps.map (run src) = before ++ r :: behind ↔
      ∃ qs p rest, ps = qs ++ p :: rest ∧ qs.map (run src) = before ∧ p.run src = r ∧
        rest.map (run src) = behind := by
  rw [List.map_eq_append_iff]
  constructor
  · rintro ⟨qs, ps', rfl, hqs, hps'⟩
    obtain ⟨p, rest, rfl, hp, hrest⟩ := List.map_eq_cons_iff.mp hps'
    exact ⟨qs, p, rest, rfl, hqs, hp, hrest⟩
  · rintro ⟨qs, p, rest, rfl, hqs, hp, hrest⟩
    exact ⟨qs, p :: rest, rfl, hqs, List.map_eq_cons_iff.mpr ⟨p, rest, rfl, hp, hrest⟩⟩

theorem run_sequence_cases (first : Parser) (rest : List Parser) :
    (∃ stop res, Passes ((first :: rest).map (run src)) start stop ∧
      (sequence first rest).run src start = ⟨.success res, stop⟩) ∨
    ∃ before p behind mid, first :: rest = before ++ p :: behind ∧
      Passes (before.map (run src)) start mid ∧ ¬ (p.run src mid).Succeeds ∧
      (sequence first rest).run src start = p.run src mid := by
  rw [run_sequence]
  refine (Runner.sequence_cases ((first :: rest).map (run src)) start).imp id ?_
  rintro ⟨before, r, behind, mid, hparts, hpass, hr, hend⟩
  obtain ⟨qs, p, rest', hsplit, rfl, rfl, rfl⟩ := map_run_eq_append_cons.mp hparts
  exact ⟨qs, p, rest', mid, hsplit, hpass, hr, hend⟩

theorem run_choice_cases (alternatives : List Parser) :
    (∃ before p behind, alternatives = before ++ p :: behind ∧
      (∀ q ∈ before, Refuses start (q.run src)) ∧ ¬ Refuses start (p.run src) ∧
      (choice alternatives).run src start = p.run src start) ∨
    ∃ fs : List Failure,
      List.Forall₂ (fun p f => p.run src start = ⟨.failure f, start⟩) alternatives fs ∧
      (choice alternatives).run src start =
        ⟨.failure { pos := start, cause := .plain Failure.noAlternative,
                    notes := (fs.map Failure.toNote).reverse }, start⟩ := by
  rw [run_choice]
  refine (Runner.choice_cases (alternatives.map (run src)) start).imp ?_ ?_
  · rintro ⟨before, r, behind, hparts, hbefore, hr, hend⟩
    obtain ⟨qs, p, rest, hsplit, rfl, rfl, rfl⟩ := map_run_eq_append_cons.mp hparts
    exact ⟨qs, p, rest, hsplit, List.forall_mem_map.mp hbefore, hr, hend⟩
  · rintro ⟨fs, hall, hend⟩
    exact ⟨fs, List.forall₂_map_left_iff.mp hall, hend⟩

theorem run_choice_eq_first {before : List Parser} {p : Parser}
    (hbefore : ∀ q ∈ before, Refuses start (q.run src)) (hp : Decides start (p.run src))
    (behind : List Parser) :
    (choice (before ++ p :: behind)).run src start = p.run src start := by
  rw [run_choice, List.map_append, List.map_cons]
  exact Runner.choiceFrom_eq_first (List.forall_mem_map.mpr hbefore) hp _ []

end Parser

end Backtrack
