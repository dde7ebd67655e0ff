import Backtrack.Parser.Parse
import Backtrack.Proofs.Decision
import Backtrack.Proofs.Rendering

/-!
# What a choice reports

A choice runs as its first alternative does that decides, whatever stands behind that one. If no
alternative decides, the failure of the choice keeps what each of them said and where, the last one
first, and the error of a parse shows it again in the order of the alternatives, below the place where
the choice began. Notes that are appended to the error later come behind. A start or a failure that
lies too far before the text has no place to show, and then the parse ends with a fault and no error.
-/

namespace Backtrack

open ParseError (Renders)
open Place (IsFar)
open Runner (Decides)

/-- The error turns the reversed notes of the failure round again. -/
theorem Failure.reported_noAlternative (start : Int) (fs : List Failure) :
    Failure.reported { pos := start, cause := .plain noAlternative,
                       notes := (fs.map toNote).reverse } =
      ⟨start, none⟩ :: fs.map toNote := by
  rw [reported, List.reverse_reverse]

/-- A choice runs as the first alternative that succeeds, faults or leaves the start, and no later one
matters. If there is none, it fails at the start with a note for each failure, newest first. Unless the
start or a failure lies far before the text, the parse ends with an error that renders the start, and
then each failure at its own position, oldest first; what is appended later comes last. Otherwise the
notes cannot be rendered, and the parse ends with that fault. -/
theorem choice_decision_and_notes (alternatives : List Parser) (src : Sequence) (start : Int) :
    (∃ before p behind, alternatives = before ++ p :: behind ∧
      (∀ q ∈ before, ¬ Decides start (q.run src)) ∧ Decides start (p.run src) ∧
      ∀ others, (Parser.choice (before ++ p :: others)).run src start = p.run src start) ∨
    ∃ fs : List Failure,
      List.Forall₂ (fun p f => p.run src start = ⟨.failure f, start⟩) alternatives fs ∧
      (Parser.choice alternatives).run src start =
        ⟨.failure { pos := start, cause := .plain Failure.noAlternative,
                    notes := (fs.map fun f => ⟨f.pos, f.message⟩).reverse }, start⟩ ∧
      ∃ (told : List Note) (abort : Abort),
        told = ⟨start, none⟩ :: fs.map (fun f => ⟨f.pos, f.message⟩) ∧
        (Parser.choice alternatives).parse src start =
          ⟨.error abort, [.parseFailed "inner" start (some Failure.noAlternative)]⟩ ∧
        ((∃ n ∈ told, IsFar src.flatten n.pos) → abort = .fault .noCount) ∧
        ((∀ n ∈ told, ¬ IsFar src.flatten n.pos) →
          ∃ e : ParseError, abort = .error e ∧
            e.text = src.flatten ∧ e.pos = start ∧ e.msg = some Failure.noAlternative ∧
            e.notes.length = alternatives.length + 1 ∧ Renders src.flatten told e.notes ∧
            ∀ later shown, Renders src.flatten later shown →
              later.foldlM ParseError.appendNote e = .ok { e with notes := e.notes ++ shown }) := by
  rcases Parser.run_choice_cases alternatives with
    ⟨before, p, behind, rfl, hbefore, hp, -⟩ | ⟨fs, hall, hrun⟩
  · have hdecides : Decides start (p.run src) := Runner.decides_iff_not_refuses.mpr hp
    refine .inl ⟨before, p, behind, rfl, ?_, hdecides, ?_⟩
    · intro q hq hq'
      exact Runner.decides_iff_not_refuses.mp hq' (hbefore q hq)
    · exact Parser.run_choice_eq_first hbefore hdecides
  · have htold := Failure.reported_noAlternative start fs
    refine .inr ⟨fs, hall, hrun, _, _, htold, Parser.parse_failure hrun, ?_, ?_⟩
    · intro hfar
      exact Abort.ofFailure_of_error (Failure.toError_of_far hfar)
    · intro hnear
      obtain ⟨shown, hshown⟩ := ParseError.exists_renders hnear
      refine ⟨_, Abort.ofFailure_of_ok (Failure.toError_of_renders hshown), rfl, rfl, rfl, ?_, hshown,
        fun _ _ hlater => hlater.foldlM_appendNote⟩
      rw [← hshown.length_eq, htold, List.length_cons, List.length_map, hall.length_eq]

/-- So a choice that fails does not always make an error of the parse. From the first position that is
no index, the fault of rendering takes its place. -/
theorem start_too_far_to_report :
    (Parser.choice []).run (.text ['a', 'b', 'c']) (-9223372036854775809) =
      ⟨.failure { pos := -9223372036854775809, cause := .plain Failure.noAlternative },
        -9223372036854775809⟩ ∧
    (Parser.choice []).parse (.text ['a', 'b', 'c']) (-9223372036854775809) =
      ⟨.error (.fault .noCount),
        [.parseFailed "inner" (-9223372036854775809) (some Failure.noAlternative)]⟩ ∧
    ¬ ∀ (alternatives : List Parser) (src : Sequence) (start : Int) (f : Failure),
      (Parser.choice alternatives).run src start = ⟨.failure f, start⟩ →
      ∃ e, ((Parser.choice alternatives).parse src start).outcome = .error (.error e) := by
  have hrun : (Parser.choice []).run (.text ['a', 'b', 'c']) (-9223372036854775809) =
      ⟨.failure { pos := -9223372036854775809, cause := .plain Failure.noAlternative },
        -9223372036854775809⟩ := rfl
  have hparse : (Parser.choice []).parse (.text ['a', 'b', 'c']) (-9223372036854775809) =
      ⟨.error (.fault .noCount),
        [.parseFailed "inner" (-9223372036854775809) (some Failure.noAlternative)]⟩ := rfl
  refine ⟨hrun, hparse, ?_⟩
  intro h
  obtain ⟨e, he⟩ := h _ _ _ _ hrun
  rw [hparse] at he
  cases he

/-- The first alternative had read one item when it failed, and its note says so. -/
example :
    (Parser.choice [.attempt (.sequence (.token .all (.plain none)) [.never "deep"]),
      .never "here"]).run (.text ['a']) 0 =
      ⟨.failure { pos := 0, cause := .plain Failure.noAlternative,
                  notes := [⟨0, "here"⟩, ⟨1, "deep"⟩] }, 0⟩ := rfl

end Backtrack
