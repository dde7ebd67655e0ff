import Backtrack.Proofs.Misuse
import Backtrack.Proofs.Rendering

/-!
# What has been built does not fault

Runs only move forward from their start or go back to it, so a run that does not start before the
first item never reads before it. Without seeks and raises nothing else can fault. The failure that
a run may end with can be shown: its literal is still one, and none of its places lies before the
first item, so on any source that fits in a memory the notes can be rendered.
-/

namespace Backtrack

namespace Runner

/-- No run faults from a position that is not before the first of `n` items. -/
def NeverFaults (n : Nat) (p : Runner) : Prop :=
  ∀ pos, -(n : Int) ≤ pos → ∀ e, (p pos).outcome ≠ .fault e

variable {n : Nat} {src : Sequence}

theorem Passes.le {ps : List Runner} {pos stop : Int} (h : Passes ps pos stop)
    (hps : ∀ p ∈ ps, Accounts n p) : pos ≤ stop := by
  induction h with
  | nil pos => exact Int.le_refl pos
  | @cons p ps pos next stop r hrun _ ih =>
    have hstart := (hps p List.mem_cons_self pos).start_le
    rw [hrun] at hstart
    have hrest := ih fun q hq => hps q (List.mem_cons_of_mem p hq)
    exact Int.le_trans hstart hrest

theorem neverFaults_sequence {ps : List Runner} (h : ∀ p ∈ ps, NeverFaults n p)
    (hps : ∀ p ∈ ps, Accounts n p) : NeverFaults n (sequence ps) := by
  intro pos hpos e
  rcases sequence_cases ps pos with
    ⟨stop, res, _, hend⟩ | ⟨before, p, behind, mid, rfl, hpass, _, hend⟩
  · simp [hend]
  · have hmid := hpass.le fun q hq => hps q (List.mem_append_left _ hq)
    rw [hend]
    exact h p List.mem_append_cons_self mid (Int.le_trans hpos hmid) e

theorem neverFaults_choice {ps : List Runner} (h : ∀ p ∈ ps, NeverFaults n p) :
    NeverFaults n (choice ps) := by
  intro pos hpos e
  rcases choice_cases ps pos with ⟨before, p, behind, rfl, _, _, hend⟩ | ⟨fs, _, hend⟩
  · rw [hend]
    exact h p List.mem_append_cons_self pos hpos e
  · simp [hend]

theorem neverFaults_attempt {p : Runner} (h : NeverFaults n p) : NeverFaults n (attempt p) := by
  intro pos hpos e
  rcases hrun : p pos with ⟨outcome, next⟩
  cases outcome with
  | success r => simp [attempt_success hrun]
  | failure f => simp [attempt_failure hrun]
  | fault e' =>
    have hno := h pos hpos e'
    rw [hrun] at hno
    exact absurd rfl hno

theorem neverFaults_token (accepts : Value → Bool) (refuse : Int → Value → Failure) :
    NeverFaults src.length (token src accepts refuse) := by
  intro pos hpos e
  obtain ⟨item, hitem⟩ := Sequence.peek_isOk hpos
  cases item with
  | none => simp [token, hitem]
  | some v =>
    simp only [token, hitem]
    split <;> simp

theorem neverFaults_eof : NeverFaults src.length (eof src) := by
  intro pos hpos e
  obtain ⟨item, hitem⟩ := Sequence.peek_isOk hpos
  cases item with
  | none => simp [eof, hitem]
  | some v => simp [eof, hitem]

theorem neverFaults_literal (l : Literal) : NeverFaults src.length (literal src l) := by
  intro pos hpos e
  rcases literal_run l hpos with ⟨_, hrun⟩ | ⟨i, c, found, _, hrun⟩
  · simp [hrun]
  · simp [hrun]

theorem neverFaults_trie (root : Trie) : NeverFaults src.length (trie src root) := by
  intro pos hpos e
  rcases trie_run root hpos with ⟨word, _, _, _, hrun⟩ | ⟨_, hrun⟩
  · simp [hrun]
  · simp [hrun]

end Runner

namespace Parser

open Runner

theorem neverFaults_run {p : Parser} (hseek : p.lacks .seek = true) (hraise : p.lacks .raise = true)
    (src : Sequence) : NeverFaults src.length (p.run src) := by
  induction p with
  | token test report => exact neverFaults_token _ _
  | always value type =>
    intro pos hpos e
    simp [run, Runner.always]
  | never msg =>
    intro pos hpos e
    simp [run, Runner.never]
  | eof => exact neverFaults_eof
  | literal l => exact neverFaults_literal l
  | trie words => exact neverFaults_trie words
  | sequence first rest ih =>
    have hseeks := lacks_sequence.mp hseek
    have hraises := lacks_sequence.mp hraise
    rw [run_sequence]
    refine neverFaults_sequence (List.forall_mem_map.mpr ?_) (accounts_runs hseeks src)
    exact fun p hp => ih p hp (hseeks p hp) (hraises p hp)
  | choice alternatives ih =>
    have hseeks := lacks_choice.mp hseek
    have hraises := lacks_choice.mp hraise
    rw [run_choice]
    refine neverFaults_choice (List.forall_mem_map.mpr ?_)
    exact fun p hp => ih p hp (hseeks p hp) (hraises p hp)
  | attempt body ih => exact neverFaults_attempt (ih hseek hraise)
  | label name body ih => exact ih hseek hraise
  | anonymous body ih => exact ih hseek hraise
  | seek target succeeds => cases hseek
  | raise msg => cases hraise

end Parser

/-- The message as it is formed: the literal is checked again as it was written, and an item of it
that is not a character is a misuse. -/
def Cause.describe : Cause → Except Misuse (Option String)
  | .mismatch literal index what found => do
    let checked ← Literal.ofSequence literal.written
    return (Cause.mismatch checked index what found).message
  | cause => return cause.message

theorem Cause.describe_eq (cause : Cause) : cause.describe = .ok cause.message := by
  cases cause with
  | plain msg => rfl
  | expected what found => rfl
  | mismatch literal index what found =>
    rw [describe, Literal.ofSequence_of_spell literal.spelled]
    rfl

/-- The message can be formed, and no place that is rendered lies before the first item. -/
structure Failure.Showable (src : Sequence) (f : Failure) : Prop where
  message : f.cause.describe = .ok f.message
  positions : ∀ n ∈ f.toNote :: f.notes, -(src.length : Int) ≤ n.pos

/-- Every item of the sequence and every character of its text has an index. There are no longer
sequences in a memory that such indices address. -/
structure Sequence.Addressable (s : Sequence) : Prop where
  items : s.length ≤ indexLimit
  text : s.flatten.length ≤ indexLimit

/-- On a source in memory the notes of such a failure can be rendered. -/
theorem Failure.Showable.exists_toError {src : Sequence} {f : Failure} (h : f.Showable src)
    (hsrc : src.Addressable) : ∃ e, f.toError src = .ok e := by
  have hnear : ∀ pos : Int, -(src.length : Int) ≤ pos → ¬ Place.IsFar src.flatten pos := by
    intro pos hpos hfar
    have hitems := hsrc.items
    have hbefore := ((Place.isFar_iff hsrc.text).mp hfar).2
    omega
  obtain ⟨hfailure, hnotes⟩ := List.forall_mem_cons.mp h.positions
  refine Failure.exists_toError (List.forall_mem_cons.mpr ⟨hnear _ hfailure, ?_⟩)
  intro n hn
  exact hnear _ (hnotes n (List.mem_reverse.mp hn))

theorem Parser.showable_failure {p : Parser} (hseek : p.lacks .seek = true) {src : Sequence}
    {pos next : Int} (hpos : -(src.length : Int) ≤ pos) {f : Failure}
    (h : p.run src pos = ⟨.failure f, next⟩) : f.Showable src := by
  have haccount := p.accounts_run hseek src pos
  rw [h] at haccount
  obtain ⟨hnext, _⟩ := haccount.failure f rfl
  have hstart : pos ≤ next := haccount.start_le
  refine ⟨f.cause.describe_eq, List.forall_mem_cons.mpr ⟨?_, ?_⟩⟩
  · have hfailure : next ≤ f.toNote.pos := hnext
    omega
  · intro n hn
    exact Int.le_trans hpos (haccount.notes f rfl n hn).1

namespace Parser

variable {p : Parser} {src : Sequence} {pos : Int}

/-- The run of a parser without effects has an answer, and a parse hands on the result or turns the
failure into an error. -/
theorem run_answers (hseek : p.lacks .seek = true) (hraise : p.lacks .raise = true)
    (hpos : -(src.length : Int) ≤ pos) :
    (∃ r next, p.run src pos = ⟨.success r, next⟩ ∧ (p.parse src pos).outcome = .ok r) ∨
    ∃ f next, p.run src pos = ⟨.failure f, next⟩ ∧ f.Showable src ∧
      (src.Addressable → ∃ e, f.toError src = .ok e ∧
        (p.parse src pos).outcome = .error (.error e)) := by
  rcases hrun : p.run src pos with ⟨outcome, next⟩
  cases outcome with
  | success r =>
    rw [parse_success hrun]
    exact .inl ⟨r, next, rfl, rfl⟩
  | failure f =>
    have hshowable := showable_failure hseek hpos hrun
    refine .inr ⟨f, next, rfl, hshowable, ?_⟩
    intro hsrc
    obtain ⟨e, he⟩ := hshowable.exists_toError hsrc
    rw [parse_failure hrun, Abort.ofFailure_of_ok he]
    exact ⟨e, he, rfl⟩
  | fault e =>
    have hno := neverFaults_run hseek hraise src pos hpos e
    rw [hrun] at hno
    exact absurd rfl hno

/-- Only a failure makes an error of a parse. -/
theorem failure_of_parse_error {e : ParseError}
    (h : (p.parse src pos).outcome = .error (.error e)) :
    ∃ f next, p.run src pos = ⟨.failure f, next⟩ := by
  rcases hrun : p.run src pos with ⟨outcome, next⟩
  cases outcome with
  | success r =>
    rw [parse_success hrun] at h
    cases h
  | failure f => exact ⟨f, next, rfl⟩
  | fault e =>
    rw [parse, hrun] at h
    cases h

end Parser

/-- A misuse is found by building: it is that of the first demand of the grammar that is not met.
What has been built without seeks and raises answers every run with a result or a failure. On a source
in memory every failure becomes an error, and a parse ends with an error exactly for a failure. -/
theorem misuse_found_by_building (g : Grammar) :
    (∀ m, g.build.result = .error m ↔
      ∃ before d behind, g.demands = before ++ d :: behind ∧ d.misuse? = some m ∧
        ∀ b ∈ before, b.misuse? = none) ∧
    ((∃ p, g.build.result = .ok p) ↔ ∀ d ∈ g.demands, d.misuse? = none) ∧
    ∀ p, g.build.result = .ok p → g.lacks .seek = true → g.lacks .raise = true →
      ∀ (src : Sequence) (pos : Int), -(src.length : Int) ≤ pos →
        ((∃ r next, p.run src pos = ⟨.success r, next⟩ ∧ (p.parse src pos).outcome = .ok r) ∨
          ∃ f next, p.run src pos = ⟨.failure f, next⟩ ∧ f.Showable src ∧
            (src.Addressable → ∃ e, f.toError src = .ok e ∧
              (p.parse src pos).outcome = .error (.error e))) ∧
        (src.Addressable → ((∃ e, (p.parse src pos).outcome = .error (.error e)) ↔
          ∃ f next, p.run src pos = ⟨.failure f, next⟩)) := by
  have hsettles := g.settles_build
  refine ⟨?_, hsettles.ok_iff, ?_⟩
  · intro m
    rw [hsettles m, List.findSome?_eq_some_iff]
  · intro p hp hseek hraise src pos hpos
    rw [← Grammar.lacks_of_build hp] at hseek hraise
    have hanswers := Parser.run_answers hseek hraise hpos
    refine ⟨hanswers, fun hsrc => ⟨fun ⟨e, he⟩ => Parser.failure_of_parse_error he, ?_⟩⟩
    rintro ⟨f, next, hrun⟩
    rcases hanswers with ⟨r, next', hsuccess, -⟩ | ⟨f', next', -, -, herror⟩
    · rw [hrun] at hsuccess
      cases hsuccess
    · obtain ⟨e, -, he⟩ := herror hsrc
      exact ⟨e, he⟩

/-- A literal in two wrappings behind a boxed character, on a list that goes on with a number. -/
theorem misuse_found_by_building_boxed :
    (Grammar.sequence [.character (.box 0 (.text ['a'])),
      .string (.items [.wrapped .plain ['b'], .tagged ['c']])]).lacks .seek = true ∧
    (Grammar.sequence [.character (.box 0 (.text ['a'])),
      .string (.items [.wrapped .plain ['b'], .tagged ['c']])]).lacks .raise = true ∧
    -(3 : Int) ≤ -3 ∧ (Sequence.items [.text ['a'], .text ['b'], .int 7]).Addressable ∧
    ∃ p, (Grammar.sequence [.character (.box 0 (.text ['a'])),
        .string (.items [.wrapped .plain ['b'], .tagged ['c']])]).build.result = .ok p ∧
      ((∃ r next, p.run (.items [.text ['a'], .text ['b'], .int 7]) (-3) = ⟨.success r, next⟩ ∧
          (p.parse (.items [.text ['a'], .text ['b'], .int 7]) (-3)).outcome = .ok r) ∨
        ∃ f next, p.run (.items [.text ['a'], .text ['b'], .int 7]) (-3) = ⟨.failure f, next⟩ ∧
          f.Showable (.items [.text ['a'], .text ['b'], .int 7]) ∧
          ∃ e, f.toError (.items [.text ['a'], .text ['b'], .int 7]) = .ok e ∧
            (p.parse (.items [.text ['a'], .text ['b'], .int 7]) (-3)).outcome =
              .error (.error e)) := by
  have hpos : -(3 : Int) ≤ -3 := Int.le_refl _
  have hsrc : (Sequence.items [.text ['a'], .text ['b'], .int 7]).Addressable :=
    ⟨by decide, by decide⟩
  obtain ⟨-, hbuilds, hruns⟩ := misuse_found_by_building
    (.sequence [.character (.box 0 (.text ['a'])),
      .string (.items [.wrapped .plain ['b'], .tagged ['c']])])
  obtain ⟨p, hp⟩ := hbuilds.mpr (by decide)
  have hrun := hruns p hp rfl rfl (.items [.text ['a'], .text ['b'], .int 7]) (-3) hpos
  refine ⟨rfl, rfl, hpos, hsrc, p, hp, ?_⟩
  rcases hrun.1 with hsuccess | ⟨f, next, hfailure, hshowable, herror⟩
  · exact .inl hsuccess
  · exact .inr ⟨f, next, hfailure, hshowable, herror hsrc⟩

/-- The item that is no character comes before the empty sequence. -/
example :
    (Grammar.choice [.oneOf (.items [.text ['a'], .text ['b', 'c']]), .sequence []]).build.result =
      .error (.notACharacter (.text ['b', 'c'])) := rfl

end Backtrack
