import Backtrack.Proofs.Effect
import Backtrack.Proofs.Literal
import Backtrack.Proofs.Trie.LongestMatch
import Mathlib.Data.List.Forall2

/-!
# Where a run may end

Without seeks no run ends before its start, and none ends behind the source unless it started there.
A result spans just what was read, and a failure and its notes point between the place where the run
ended, or started, and that same bound. Each combinator keeps this account of positions, so all
parsers do.
-/

namespace Backtrack

/-- The account of a run that began at `start` and may go as far as `stop`. -/
structure Run.Accounted (start stop : Int) (r : Run) : Prop where
  start_le : start ≤ r.pos
  le_stop : r.pos ≤ stop
  range : ∀ res, r.outcome = .success res → res.range = some (start, r.pos)
  failure : ∀ f, r.outcome = .failure f → r.pos ≤ f.pos ∧ f.pos ≤ stop
  notes : ∀ f, r.outcome = .failure f → ∀ n ∈ f.notes, start ≤ n.pos ∧ n.pos ≤ stop

namespace Run

variable {start stop next : Int}

theorem accounted_success {res : Result} (hstart : start ≤ next) (hstop : next ≤ stop)
    (hrange : res.range = some (start, next)) : Accounted start stop ⟨.success res, next⟩ := by
  refine ⟨hstart, hstop, ?_, ?_, ?_⟩
  · intro res' h
    cases h
    exact hrange
  · intro f h
    cases h
  · intro f h
    cases h

theorem accounted_failure {f : Failure} (hstart : start ≤ next) (hnext : next ≤ f.pos)
    (hstop : f.pos ≤ stop) (hnotes : ∀ n ∈ f.notes, start ≤ n.pos ∧ n.pos ≤ stop) :
    Accounted start stop ⟨.failure f, next⟩ := by
  refine ⟨hstart, Int.le_trans hnext hstop, ?_, ?_, ?_⟩
  · intro res h
    cases h
  · intro f' h
    cases h
    exact ⟨hnext, hstop⟩
  · intro f' h
    cases h
    exact hnotes

theorem accounted_fault {e : Fault} (hstart : start ≤ next) (hstop : next ≤ stop) :
    Accounted start stop ⟨.fault e, next⟩ := by
  refine ⟨hstart, hstop, ?_, ?_, ?_⟩
  · intro res h
    cases h
  · intro f h
    cases h
  · intro f h
    cases h

end Run

namespace Runner

open Run

/-- Runs from every position keep account, up to the end of a source of `n` items. -/
def Accounts (n : Nat) (p : Runner) : Prop := ∀ pos, Accounted pos (max pos n) (p pos)

variable {n : Nat}

/-- A later start narrows the account of what did not succeed. -/
theorem accounted_failure_of_later {start pos next : Int} {f : Failure} (hstart : start ≤ pos)
    (hpos : pos ≤ max start n) (h : Accounted pos (max pos n) ⟨.failure f, next⟩) :
    Accounted start (max start n) ⟨.failure f, next⟩ := by
  obtain ⟨hnext, hstop⟩ := h.failure f rfl
  have hle : pos ≤ next := h.start_le
  refine accounted_failure (by omega) hnext (by omega) ?_
  intro note hnote
  have hbounds := h.notes f rfl note hnote
  omega

theorem accounted_sequenceFrom {ps : List Runner} (h : ∀ p ∈ ps, Accounts n p) (start : Int) :
    ∀ (pos : Int) (last : Result), start ≤ pos → pos ≤ max start n →
      Accounted start (max start n) (sequenceFrom start ps last pos) := by
  induction ps with
  | nil =>
    intro pos last hstart hpos
    exact accounted_success hstart hpos rfl
  | cons p ps ih =>
    intro pos last hstart hpos
    have hp := h p List.mem_cons_self pos
    rcases hrun : p pos with ⟨outcome, next⟩
    rw [hrun] at hp
    have hlow : pos ≤ next := hp.start_le
    have hhigh : next ≤ max pos n := hp.le_stop
    cases outcome with
    | success r =>
      rw [sequenceFrom_success hrun]
      exact ih (fun q hq => h q (List.mem_cons_of_mem _ hq)) next r (by omega) (by omega)
    | failure f =>
      rw [sequenceFrom_failure hrun]
      exact accounted_failure_of_later hstart hpos hp
    | fault e =>
      rw [sequenceFrom_fault hrun]
      exact accounted_fault (by omega) (by omega)

theorem accounts_sequence {ps : List Runner} (h : ∀ p ∈ ps, Accounts n p) :
    Accounts n (sequence ps) := fun pos =>
  accounted_sequenceFrom h pos pos _ (Int.le_refl _) (Int.le_max_left _ _)

/-- A choice goes on only from where it began, so the range of an alternative is its own. -/
theorem accounted_choiceFrom {ps : List Runner} (h : ∀ p ∈ ps, Accounts n p) (start : Int) :
    ∀ notes : List Note, (∀ m ∈ notes, start ≤ m.pos ∧ m.pos ≤ max start n) →
      Accounted start (max start n) (choiceFrom start ps notes) := by
  induction ps with
  | nil =>
    intro notes hnotes
    exact accounted_failure (Int.le_refl _) (Int.le_refl _) (Int.le_max_left _ _) hnotes
  | cons p ps ih =>
    intro notes hnotes
    have hp := h p List.mem_cons_self start
    rcases hrun : p start with ⟨outcome, next⟩
    rw [hrun] at hp
    cases outcome with
    | success r =>
      rw [choiceFrom_success hrun]
      exact hp
    | failure f =>
      by_cases hnext : next = start
      · subst hnext
        rw [choiceFrom_unmoved hrun]
        refine ih (fun q hq => h q (List.mem_cons_of_mem _ hq)) _ ?_
        intro m hm
        rcases List.mem_cons.mp hm with rfl | hm
        · exact hp.failure f rfl
        · exact hnotes m hm
      · rw [choiceFrom_moved hrun hnext]
        exact hp
    | fault e =>
      rw [choiceFrom_fault hrun]
      exact hp

theorem accounts_choice {ps : List Runner} (h : ∀ p ∈ ps, Accounts n p) :
    Accounts n (choice ps) := fun pos =>
  accounted_choiceFrom h pos [] fun _ hm => by cases hm

theorem accounts_attempt {p : Runner} (h : Accounts n p) : Accounts n (attempt p) := by
  intro pos
  have hp := h pos
  rcases hrun : p pos with ⟨outcome, next⟩
  rw [hrun] at hp
  cases outcome with
  | success r =>
    rw [attempt_success hrun]
    exact hp
  | failure f =>
    rw [attempt_failure hrun]
    obtain ⟨hnext, hstop⟩ := hp.failure f rfl
    exact accounted_failure (Int.le_refl _) (Int.le_trans hp.start_le hnext) hstop (hp.notes f rfl)
  | fault e =>
    rw [attempt_fault hrun]
    exact accounted_fault (Int.le_refl _) (Int.le_max_left _ _)

/-- Two runners that are made of one list of parts pair them one by one. -/
theorem forall₂_map {α : Type} {R : Runner → Runner → Prop} {xs : List α} {f g : α → Runner}
    (h : ∀ x ∈ xs, R (f x) (g x)) : List.Forall₂ R (xs.map f) (xs.map g) := by
  rw [List.forall₂_map_left_iff, List.forall₂_map_right_iff, List.forall₂_same]
  exact h

theorem accounted_here {pos : Int} (cause : Cause) :
    Accounted pos (max pos n) ⟨.failure { pos, cause }, pos⟩ :=
  accounted_failure (Int.le_refl _) (Int.le_refl _) (Int.le_max_left _ _) fun _ hm => by cases hm

variable {src : Sequence}

theorem accounts_token {accepts : Value → Bool} {refuse : Int → Value → Failure}
    (h : ∀ pos v, ∃ cause, refuse pos v = { pos, cause }) :
    Accounts src.length (token src accepts refuse) := by
  have hrefuse : ∀ pos v,
      Accounted pos (max pos src.length) ⟨.failure (refuse pos v), pos⟩ := by
    intro pos v
    obtain ⟨cause, hcause⟩ := h pos v
    rw [hcause]
    exact accounted_here cause
  intro pos
  rw [token]
  split
  · exact accounted_fault (Int.le_refl _) (Int.le_max_left _ _)
  · exact hrefuse pos .null
  · next v hv =>
    have hpos := Sequence.lt_length_of_peek hv
    split
    · exact accounted_success (by omega) (by omega) rfl
    · exact hrefuse pos v

theorem accounts_always (value : Value) (type : Option String) :
    Accounts n (always value type) := fun _ =>
  accounted_success (Int.le_refl _) (Int.le_max_left _ _) rfl

theorem accounts_never (msg : Option String) : Accounts n (never msg) := fun _ =>
  accounted_here _

theorem accounts_eof : Accounts src.length (eof src) := by
  intro pos
  rw [eof]
  split
  · exact accounted_fault (Int.le_refl _) (Int.le_max_left _ _)
  · exact accounted_success (Int.le_refl _) (Int.le_max_left _ _) rfl
  · exact accounted_here _

theorem accounts_letters (l : Literal) : ∀ p ∈ letters src l, Accounts src.length p := by
  intro p hp
  rcases List.mem_append.mp hp with hp | hp
  · obtain ⟨x, _, rfl⟩ := List.mem_map.mp hp
    exact accounts_token fun _ _ => ⟨_, rfl⟩
  · cases List.mem_singleton.mp hp
    exact accounts_always _ _

theorem accounts_literal (l : Literal) : Accounts src.length (literal src l) :=
  accounts_attempt (accounts_sequence (accounts_letters l))

/-- The walk stays within the source, and the runner comes back to a place on the way. -/
theorem accounts_trie (root : Trie) : Accounts src.length (trie src root) := by
  intro pos
  cases hrun : (Trie.Walk.start root pos).run src with
  | error e =>
    rw [trie_fault hrun]
    exact accounted_fault (Int.le_refl _) (Int.le_max_left _ _)
  | ok w =>
    obtain ⟨htracks, -⟩ := Trie.Walk.tracks_run hrun
    cases hlongest : w.longest with
    | none =>
      rw [trie_failure hrun hlongest]
      exact accounted_here _
    | some m =>
      rw [trie_success hrun hlongest]
      have hm := (htracks.passed m hlongest).1
      have hstop := htracks.reads.stop_le
      exact accounted_success (by omega) (by omega) rfl

theorem accounts_raise (msg : String) : Accounts n (raise msg) := fun _ =>
  accounted_fault (Int.le_refl _) (Int.le_max_left _ _)

end Runner

namespace Parser

open Runner

theorem accounts_run {p : Parser} (h : p.lacks .seek = true) (src : Sequence) :
    Accounts src.length (p.run src) := by
  induction p with
  | token test report =>
    rw [run]
    exact accounts_token fun pos v => by cases report <;> exact ⟨_, rfl⟩
  | always value type => exact accounts_always value type
  | never msg => exact accounts_never msg
  | eof => exact accounts_eof
  | literal l => exact accounts_literal l
  | trie words => exact accounts_trie words
  | sequence first rest ih =>
    have hparts := lacks_sequence.mp h
    rw [run_sequence]
    refine accounts_sequence ?_
    intro r hr
    obtain ⟨p, hp, rfl⟩ := List.mem_map.mp hr
    exact ih p hp (hparts p hp)
  | choice alternatives ih =>
    have hparts := lacks_choice.mp h
    rw [run_choice]
    refine accounts_choice ?_
    intro r hr
    obtain ⟨p, hp, rfl⟩ := List.mem_map.mp hr
    exact ih p hp (hparts p hp)
  | attempt body ih => exact accounts_attempt (ih h)
  | label name body ih => exact ih h
  | anonymous body ih => exact ih h
  | seek target succeeds => cases h
  | raise msg => exact accounts_raise msg

theorem accounts_runs {ps : List Parser} (h : ∀ p ∈ ps, p.lacks .seek = true) (src : Sequence) :
    ∀ r ∈ ps.map (run src), Accounts src.length r := by
  intro r hr
  obtain ⟨p, hp, rfl⟩ := List.mem_map.mp hr
  exact accounts_run (h p hp) src

end Parser

/-- Every run of a parser without seeks, from any position, keeps account of its positions. -/
theorem run_positions_accounted (p : Parser) (hp : p.lacks .seek = true) (src : Sequence)
    (start : Int) : (p.run src start).Accounted start (max start src.length) :=
  p.accounts_run hp src start

/-- The first alternative reads the whole text and goes back, and the second one raises. -/
theorem run_positions_accounted_rewound :
    (Parser.choice [.attempt (.sequence (.token .all (.plain none)) [.never "no"]),
      .sequence (.token .all (.plain none)) [.raise "stop"]]).lacks .seek = true ∧
    ((Parser.choice [.attempt (.sequence (.token .all (.plain none)) [.never "no"]),
      .sequence (.token .all (.plain none)) [.raise "stop"]]).run (.text ['a']) (-1)).Accounted
        (-1) (max (-1) 1) := by
  have hseek : (Parser.choice [.attempt (.sequence (.token .all (.plain none)) [.never "no"]),
      .sequence (.token .all (.plain none)) [.raise "stop"]]).lacks .seek = true := by decide
  exact ⟨hseek, run_positions_accounted _ hseek (.text ['a']) (-1)⟩

end Backtrack
