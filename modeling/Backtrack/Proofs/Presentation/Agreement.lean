import Backtrack.Parser.Parse
import Backtrack.Proofs.Position
import Backtrack.Proofs.Presentation.Text

/-!
# Runs on two presentations of a source

Two runs agree if they end in the same way at the same place and say the same about it. Only how the
parsed values, a literal and the item found are presented may differ. A parser without seeks cannot
tell the presentations of a source apart: each combinator takes agreeing runners to an agreeing one,
and stays behind its start, where both sources have their items.
-/

namespace Backtrack

/-- The results differ in their values at most, which are related by `data`. -/
structure Result.Agree (data : Value → Value → Prop) (r r' : Result) : Prop where
  type : r.type = r'.type
  range : r.range = r'.range
  value : data r.value r'.value

structure Failure.Agree (f f' : Failure) : Prop where
  kind : f.cause.kind = f'.cause.kind
  pos : f.pos = f'.pos
  message : f.message = f'.message
  expected : f.cause.expected? = f'.cause.expected?
  index : f.cause.index? = f'.cause.index?
  found : f.cause.found?.map Value.bare = f'.cause.found?.map Value.bare
  notes : f.notes = f'.notes

inductive Run.Agree (data : Value → Value → Prop) : Run → Run → Prop
  | success {r r' : Result} (h : r.Agree data r') (pos : Int) :
    Agree data ⟨.success r, pos⟩ ⟨.success r', pos⟩
  | failure {f f' : Failure} (h : f.Agree f') (pos : Int) :
    Agree data ⟨.failure f, pos⟩ ⟨.failure f', pos⟩
  | fault (e : Fault) (pos : Int) : Agree data ⟨.fault e, pos⟩ ⟨.fault e, pos⟩

/-- Parses that give related results, or the same error with the same notes, and record the same
events. -/
inductive Parse.Agree (data : Value → Value → Prop) : Parse → Parse → Prop
  | result {r r' : Result} (h : r.Agree data r') (events : List Event) :
    Agree data ⟨.ok r, events⟩ ⟨.ok r', events⟩
  | abort (a : Abort) (events : List Event) : Agree data ⟨.error a, events⟩ ⟨.error a, events⟩

theorem Result.agree_spanning {data : Value → Value → Prop} (type : Option String)
    (start stop : Int) {v w : Value} (h : data v w) :
    Agree data (.spanning type start stop v) (.spanning type start stop w) := ⟨rfl, rfl, h⟩

namespace Failure

theorem Agree.refl (f : Failure) : f.Agree f := ⟨rfl, rfl, rfl, rfl, rfl, rfl, rfl⟩

theorem agree_expected (pos : Int) (what : String) {v w : Value} (h : v.SameFound w) :
    Agree { pos, cause := .expected what v } { pos, cause := .expected what w } := by
  refine ⟨rfl, rfl, ?_, rfl, rfl, ?_, rfl⟩
  · simp only [message, Cause.message, h.describeFound_eq]
  · exact congrArg some h.bare_eq

theorem agree_mismatch (pos index : Int) (what : String) {l l' : Literal}
    (hl : l.letters = l'.letters) {v w : Value} (h : v.SameFound w) :
    Agree { pos, cause := .mismatch l index what v } { pos, cause := .mismatch l' index what w } := by
  refine ⟨rfl, rfl, ?_, rfl, rfl, ?_, rfl⟩
  · simp only [message, Cause.message, hl, h.describeFound_eq]
  · exact congrArg some h.bare_eq

theorem Agree.toNote {f f' : Failure} (h : f.Agree f') : f.toNote = f'.toNote := by
  simp only [Failure.toNote, h.pos, h.message]

theorem Agree.toError {f f' : Failure} (h : f.Agree f') {src src' : Sequence}
    (hsrc : src.flatten = src'.flatten) : f.toError src = f'.toError src' := by
  simp only [Failure.toError, Failure.reported, hsrc, h.pos, h.message, h.notes]

end Failure

namespace Runner

variable {data : Value → Value → Prop} {n : Nat}

/-- The runs agree from every position that is not before the first of `n` items. -/
def Agree (data : Value → Value → Prop) (n : Nat) (p q : Runner) : Prop :=
  ∀ pos, -(n : Int) ≤ pos → Run.Agree data (p pos) (q pos)

/-- No part starts before the sequence does, so the parts agree one after the other. -/
theorem agree_sequenceFrom {ps qs : List Runner} (h : List.Forall₂ (Agree data n) ps qs)
    (hps : ∀ p ∈ ps, Accounts n p) (start : Int) :
    ∀ (pos : Int) (last last' : Result), -(n : Int) ≤ pos → last.Agree data last' →
      Run.Agree data (sequenceFrom start ps last pos) (sequenceFrom start qs last' pos) := by
  induction h with
  | nil =>
    intro pos last last' _ hlast
    rw [sequenceFrom_nil, sequenceFrom_nil]
    refine .success ?_ pos
    exact ⟨hlast.type, rfl, hlast.value⟩
  | @cons p q ps qs hpq _ ih =>
    intro pos last last' hpos _
    have hrun := hpq pos hpos
    have hstart := (hps p List.mem_cons_self pos).start_le
    generalize hp : p pos = r at hrun hstart
    generalize hq : q pos = r' at hrun
    cases hrun with
    | success hr next =>
      rw [sequenceFrom_success hp, sequenceFrom_success hq]
      have hnext : pos ≤ next := hstart
      exact ih (fun p' hp' => hps p' (List.mem_cons_of_mem _ hp')) next _ _ (by omega) hr
    | failure hf next =>
      rw [sequenceFrom_failure hp, sequenceFrom_failure hq]
      exact .failure hf next
    | fault e next =>
      rw [sequenceFrom_fault hp, sequenceFrom_fault hq]
      exact .fault e next

theorem agree_sequence (hdata : ∀ v w : Value, v.SameUnboxed w → data v w) {ps qs : List Runner}
    (h : List.Forall₂ (Agree data n) ps qs) (hps : ∀ p ∈ ps, Accounts n p) :
    Agree data n (sequence ps) (sequence qs) := by
  intro pos hpos
  exact agree_sequenceFrom h hps pos pos _ _ hpos ⟨rfl, rfl, hdata _ _ rfl⟩

/-- The notes that a choice takes of two failures that agree are the same. -/
theorem agree_choiceFrom {ps qs : List Runner} (h : List.Forall₂ (Agree data n) ps qs)
    {start : Int} (hstart : -(n : Int) ≤ start) :
    ∀ notes : List Note, Run.Agree data (choiceFrom start ps notes) (choiceFrom start qs notes) := by
  induction h with
  | nil =>
    intro notes
    exact .failure (.refl _) start
  | @cons p q ps qs hpq _ ih =>
    intro notes
    have hrun := hpq start hstart
    generalize hp : p start = r at hrun
    generalize hq : q start = r' at hrun
    cases hrun with
    | success hr next =>
      rw [choiceFrom_success hp, choiceFrom_success hq]
      exact .success hr next
    | failure hf next =>
      by_cases hnext : next = start
      · subst hnext
        rw [choiceFrom_unmoved hp, choiceFrom_unmoved hq, hf.toNote]
        exact ih _
      · rw [choiceFrom_moved hp hnext, choiceFrom_moved hq hnext]
        exact .failure hf next
    | fault e next =>
      rw [choiceFrom_fault hp, choiceFrom_fault hq]
      exact .fault e next

theorem agree_choice {ps qs : List Runner} (h : List.Forall₂ (Agree data n) ps qs) :
    Agree data n (choice ps) (choice qs) := fun _ hpos => agree_choiceFrom h hpos []

theorem agree_attempt {p q : Runner} (h : Agree data n p q) :
    Agree data n (attempt p) (attempt q) := by
  intro pos hpos
  have hrun := h pos hpos
  generalize hp : p pos = r at hrun
  generalize hq : q pos = r' at hrun
  cases hrun with
  | success hr next =>
    rw [attempt_success hp, attempt_success hq]
    exact .success hr next
  | failure hf next =>
    rw [attempt_failure hp, attempt_failure hq]
    exact .failure hf pos
  | fault e next =>
    rw [attempt_fault hp, attempt_fault hq]
    exact .fault e pos

theorem agree_always {v w : Value} (h : data v w) (type : Option String) :
    Agree data n (always v type) (always w type) := fun pos _ =>
  .success (Result.agree_spanning type pos pos h) pos

theorem agree_never (msg : Option String) : Agree data n (never msg) (never msg) := fun pos _ =>
  .failure (.refl _) pos

theorem agree_raise (msg : String) : Agree data n (raise msg) (raise msg) := fun pos _ =>
  .fault (.raised msg) pos

section Readers

variable {src src' : Sequence} (hsrc : src.SameText src')

include hsrc

/-- A walk sees bare items only, so it is the same one on both sources. -/
theorem walk_run_congr {w : Trie.Walk} (h : -(src.length : Int) ≤ w.pos) :
    w.run src = w.run src' := by
  induction w using Trie.Walk.run.induct src with
  | case1 w e hpeek =>
    obtain ⟨item, hitem⟩ := Sequence.peek_isOk h
    rw [hpeek] at hitem
    cases hitem
  | case2 w hpeek =>
    rcases hsrc.peek h with ⟨_, ht⟩ | ⟨v, v', _, hv, _⟩
    · rw [Trie.Walk.run_eq src, Trie.Walk.run_eq src', hpeek, ht]
    · rw [hpeek] at hv
      cases hv
  | case3 w v hpeek hnone =>
    obtain ⟨v', hletter, hv'⟩ := hsrc.peek_item h hpeek
    have hnone' : w.step? v' = none := by rw [← w.step?_congr hletter.bare_eq, hnone]
    simp only [Trie.Walk.run_eq src w, Trie.Walk.run_eq src' w, hpeek, hv', hnone, hnone']
  | case4 w v hpeek next hnext ih =>
    obtain ⟨v', hletter, hv'⟩ := hsrc.peek_item h hpeek
    have hnext' : w.step? v' = some next := by rw [← w.step?_congr hletter.bare_eq, hnext]
    have hpos := Trie.Walk.pos_of_step? hnext
    rw [Trie.Walk.run_eq src, Trie.Walk.run_eq src', hpeek, hv']
    simp only [hnext, hnext']
    exact ih (by omega)

variable (hdata : ∀ v w : Value, v.SameUnboxed w → data v w)

include hdata

theorem agree_token {accepts : Value → Bool} {refuse refuse' : Int → Value → Failure}
    (haccepts : ∀ v w : Value, v.SameUnboxed w → accepts v = accepts w)
    (hrefuse : ∀ pos v w, v.SameFound w → (refuse pos v).Agree (refuse' pos w)) :
    Agree data src.length (token src accepts refuse) (token src' accepts refuse') := by
  intro pos hpos
  rcases hsrc.peek hpos with ⟨hs, ht⟩ | ⟨v, w, hletter, hv, hw⟩
  · simp only [token, hs, ht]
    exact .failure (hrefuse pos _ _ (.inl ⟨rfl, rfl⟩)) pos
  · simp only [token, hv, hw, ← haccepts v w hletter.bare_eq]
    split
    · exact .success (Result.agree_spanning _ _ _ (hdata v w hletter.bare_eq)) (pos + 1)
    · exact .failure (hrefuse pos v w (.inr hletter)) pos

theorem agree_eof : Agree data src.length (eof src) (eof src') := by
  intro pos hpos
  rcases hsrc.peek hpos with ⟨hs, ht⟩ | ⟨v, w, hletter, hv, hw⟩
  · simp only [eof, hs, ht]
    exact .success (Result.agree_spanning _ _ _ (hdata _ _ rfl)) pos
  · simp only [eof, hv, hw]
    exact .failure (Failure.agree_expected pos _ (.inr hletter)) pos

/-- The letters are the same tokens, and only what they are a literal of may differ. -/
theorem agree_letters {l l' : Literal} (hletters : l.letters = l'.letters)
    (hwritten : data l.written.toValue l'.written.toValue) :
    List.Forall₂ (Agree data src.length) (letters src l) (letters src' l') := by
  have hletter : ∀ x : Char × Nat,
      Agree data src.length (letter src l x.1 x.2) (letter src' l' x.1 x.2) := by
    intro x
    apply agree_token hsrc hdata
    · intro v w h
      exact Value.sameChar_congr h (.text [x.1])
    · intro pos v w h
      exact Failure.agree_mismatch pos _ _ hletters h
  unfold letters
  rw [← hletters]
  apply List.rel_append
  · exact forall₂_map fun x _ => hletter x
  · exact .cons (agree_always hwritten _) .nil

theorem agree_literal {l l' : Literal} (hletters : l.letters = l'.letters)
    (hwritten : data l.written.toValue l'.written.toValue) :
    Agree data src.length (literal src l) (literal src' l') := by
  apply agree_attempt
  apply agree_sequence hdata
  · exact agree_letters hsrc hdata hletters hwritten
  · exact accounts_letters l

theorem agree_trie (root : Trie) : Agree data src.length (trie src root) (trie src' root) := by
  intro pos hpos
  have hrun := walk_run_congr hsrc (w := .start root pos) hpos
  cases hwalk : (Trie.Walk.start root pos).run src with
  | error e =>
    rw [trie_fault hwalk, trie_fault (hrun ▸ hwalk)]
    exact .fault e pos
  | ok w =>
    cases hlongest : w.longest with
    | none =>
      rw [trie_failure hwalk hlongest, trie_failure (hrun ▸ hwalk) hlongest]
      exact .failure (.refl _) pos
    | some m =>
      rw [trie_success hwalk hlongest, trie_success (hrun ▸ hwalk) hlongest]
      exact .success (Result.agree_spanning _ _ _ (hdata _ _ rfl)) _

end Readers

end Runner

namespace Parser

open Runner

variable {data : Value → Value → Prop} {src src' : Sequence}

theorem agree_report (report : Report) (pos : Int) {v w : Value} (h : v.SameFound w) :
    (report.failure pos v).Agree (report.failure pos w) := by
  cases report with
  | expect what => exact Failure.agree_expected pos what h
  | plain msg => exact .refl _

/-- A parser without seeks runs alike on two presentations of a source. -/
theorem agree_run (hsrc : src.SameText src') (hdata : ∀ v w : Value, v.SameUnboxed w → data v w)
    {p : Parser} (hp : p.lacks .seek = true) :
    Runner.Agree data src.length (p.run src) (p.run src') := by
  induction p with
  | token test report =>
    apply agree_token hsrc hdata
    · intro v w h
      exact test.accepts_congr h
    · intro pos v w h
      exact agree_report report pos h
  | always value type => exact agree_always (hdata _ _ rfl) type
  | never msg => exact agree_never msg
  | eof => exact agree_eof hsrc hdata
  | literal l => exact agree_literal hsrc hdata rfl (hdata _ _ rfl)
  | trie words => exact agree_trie hsrc hdata words
  | sequence first rest ih =>
    have hparts := lacks_sequence.mp hp
    rw [run_sequence, run_sequence]
    apply agree_sequence hdata
    · exact forall₂_map fun q hq => ih q hq (hparts q hq)
    · exact accounts_runs hparts src
  | choice alternatives ih =>
    have hparts := lacks_choice.mp hp
    rw [run_choice, run_choice]
    apply agree_choice
    exact forall₂_map fun q hq => ih q hq (hparts q hq)
  | attempt body ih => exact agree_attempt (ih hp)
  | label name body ih => exact ih hp
  | anonymous body ih => exact ih hp
  | seek target succeeds => cases hp
  | raise msg => exact agree_raise msg

/-- Parsers of one name whose runs agree parse alike. -/
theorem agree_parse {p q : Parser} (hname : p.name = q.name) (hsrc : src.SameText src') {pos : Int}
    (h : Run.Agree data (p.run src pos) (q.run src' pos)) :
    Parse.Agree data (p.parse src pos) (q.parse src' pos) := by
  unfold parse
  generalize p.run src pos = r at h
  generalize q.run src' pos = r' at h
  cases h with
  | success hr _ => exact .result hr []
  | failure hf _ =>
    show Parse.Agree data ⟨.error (.ofFailure _ _), [.parseFailed _ _ _]⟩
      ⟨.error (.ofFailure _ _), [.parseFailed _ _ _]⟩
    rw [Abort.ofFailure, hf.toError hsrc.flatten, ← Abort.ofFailure, hname, hf.pos, hf.message]
    exact .abort _ _
  | fault e _ => exact .abort (.fault e) []

end Parser

end Backtrack
