import Backtrack.Proofs.Position

/-!
# Runs behind a prefix

A parser without seeks never looks behind its start. With another sequence in front of the source, a
run that starts that much later ends in the same way, and every position that it tells is that much
larger: those of the run, the range of a result, a failure and its notes. Causes and values hold no
positions and stay as they are.
-/

namespace Backtrack

namespace Sequence

/-- One sequence behind another of its form. A tagged text joins as a text, and what comes of it is
plain, in a wrapper too. -/
def append? : Sequence → Sequence → Option Sequence
  | .text s, .text t | .text s, .tagged t => some (.text (s ++ t))
  | .tagged s, .text t | .tagged s, .tagged t => some (.text (s ++ t))
  | .wrapped _ s, .wrapped _ t => some (.wrapped .plain (s ++ t))
  | .items vs, .items ws => some (.items (vs ++ ws))
  | _, _ => none

variable {pre src whole : Sequence}

theorem toItems_append? (h : pre.append? src = some whole) :
    whole.toItems = pre.toItems ++ src.toItems := by
  unfold append? at h
  split at h
  all_goals cases h
  all_goals simp [toItems]

/-- What stands behind the prefix is what stands in the source. -/
theorem peek_append? (h : pre.append? src = some whole) {pos : Int} (hpos : 0 ≤ pos) :
    whole.peek (pre.length + pos) = src.peek pos := by
  obtain ⟨i, rfl⟩ := Int.eq_ofNat_of_zero_le hpos
  rw [← Int.natCast_add, peek_ofNat, peek_ofNat, item?_eq_toItems, item?_eq_toItems,
    toItems_append? h, ← length_toItems pre, List.getElem?_append_right (Nat.le_add_right _ _),
    Nat.add_sub_cancel_left]

end Sequence

def Note.shift (d : Int) (n : Note) : Note := { n with pos := d + n.pos }

def Failure.shift (d : Int) (f : Failure) : Failure :=
  { f with pos := d + f.pos, notes := f.notes.map (Note.shift d) }

def Result.shift (d : Int) (r : Result) : Result :=
  { r with range := r.range.map fun (start, stop) => (d + start, d + stop) }

/-- The same run with all its positions moved by `d`. -/
def Run.shift (d : Int) : Run → Run
  | ⟨.success r, pos⟩ => ⟨.success (r.shift d), d + pos⟩
  | ⟨.failure f, pos⟩ => ⟨.failure (f.shift d), d + pos⟩
  | ⟨.fault e, pos⟩ => ⟨.fault e, d + pos⟩

theorem Failure.toNote_shift (d : Int) (f : Failure) : (f.shift d).toNote = f.toNote.shift d := rfl

theorem Result.spanning_shift (d : Int) (type : Option String) (start stop : Int) (v : Value) :
    (spanning type start stop v).shift d = .spanning type (d + start) (d + stop) v := rfl

namespace Trie.Walk

def shift (d : Int) (w : Walk) : Walk := { w with pos := d + w.pos }

theorem follow_shift (d : Int) (w : Walk) (key : Text) (next : Trie) :
    (w.shift d).follow key next = (w.follow key next).shift d := by
  simp only [follow, shift, Int.add_assoc]

theorem step?_shift (d : Int) (w : Walk) (v : Value) :
    (w.shift d).step? v = (w.step? v).map (shift d) := by
  unfold step?
  split
  · rw [Option.map_map]
    exact congrArg (Option.map · _) (funext (follow_shift d w _))
  · rfl

/-- Both walks see the same items, and stop at the same node. -/
theorem run_shift {pre src whole : Sequence} (h : pre.append? src = some whole) {w : Walk}
    (hpos : 0 ≤ w.pos) :
    (w.shift pre.length).run whole = (w.run src).map (shift pre.length) := by
  have hpeek : whole.peek (w.shift pre.length).pos = src.peek w.pos := Sequence.peek_append? h hpos
  induction w using Walk.run.induct src with
  | case1 w e hw => simp only [run_eq whole, run_eq src, hpeek, hw, Except.map]
  | case2 w hw => simp only [run_eq whole, run_eq src, hpeek, hw, Except.map]
  | case3 w v hw hnone =>
    simp only [run_eq whole, run_eq src, hpeek, hw, step?_shift, hnone, Option.map_none, Except.map]
  | case4 w v hw next hnext ih =>
    have hnextpos : 0 ≤ next.pos := by
      have hmoved := pos_of_step? hnext
      omega
    rw [run_eq whole, run_eq src w, hpeek, hw]
    simp only [step?_shift, hnext, Option.map_some]
    exact ih hnextpos (Sequence.peek_append? h hnextpos)

end Trie.Walk

namespace Runner

/-- From `d` later on, the second runner does what the first one does, as long as that does not start
before the first item. -/
def Shifted (d : Int) (p q : Runner) : Prop := ∀ pos, 0 ≤ pos → q (d + pos) = (p pos).shift d

variable {d : Int}

/-- No part starts before the sequence does, so none starts before the first item. -/
theorem shifted_sequenceFrom {n : Nat} {ps qs : List Runner} (h : List.Forall₂ (Shifted d) ps qs)
    (hps : ∀ p ∈ ps, Accounts n p) (start : Int) :
    ∀ (pos : Int) (last : Result), 0 ≤ pos →
      sequenceFrom (d + start) qs (last.shift d) (d + pos) =
        (sequenceFrom start ps last pos).shift d := by
  induction h with
  | nil =>
    intro pos last _
    rfl
  | @cons p q ps qs hpq _ ih =>
    intro pos last hpos
    have hlater := (hps p List.mem_cons_self pos).start_le
    have hq := hpq pos hpos
    rcases hp : p pos with ⟨outcome, next⟩
    rw [hp] at hlater hq
    cases outcome with
    | success r =>
      rw [sequenceFrom_success hp, sequenceFrom_success hq]
      exact ih (fun p' hp' => hps p' (List.mem_cons_of_mem _ hp')) next r (Int.le_trans hpos hlater)
    | failure f =>
      rw [sequenceFrom_failure hp, sequenceFrom_failure hq]
      rfl
    | fault e =>
      rw [sequenceFrom_fault hp, sequenceFrom_fault hq]
      rfl

theorem shifted_sequence {n : Nat} {ps qs : List Runner} (h : List.Forall₂ (Shifted d) ps qs)
    (hps : ∀ p ∈ ps, Accounts n p) : Shifted d (sequence ps) (sequence qs) := fun pos hpos =>
  shifted_sequenceFrom h hps pos pos { type := none, value := .null } hpos

/-- Both choices go on in the same cases, since both compare positions with a start that is shifted,
too. -/
theorem shifted_choiceFrom {ps qs : List Runner} (h : List.Forall₂ (Shifted d) ps qs) {start : Int}
    (hstart : 0 ≤ start) :
    ∀ notes : List Note, choiceFrom (d + start) qs (notes.map (Note.shift d)) =
      (choiceFrom start ps notes).shift d := by
  induction h with
  | nil =>
    intro notes
    rfl
  | @cons p q ps qs hpq _ ih =>
    intro notes
    have hq := hpq start hstart
    rcases hp : p start with ⟨outcome, next⟩
    rw [hp] at hq
    cases outcome with
    | success r =>
      rw [choiceFrom_success hp, choiceFrom_success hq]
      rfl
    | failure f =>
      by_cases hnext : next = start
      · subst hnext
        rw [choiceFrom_unmoved hp, choiceFrom_unmoved hq, Failure.toNote_shift, ← List.map_cons]
        exact ih _
      · have hmoved : d + next ≠ d + start := by omega
        rw [choiceFrom_moved hp hnext, choiceFrom_moved hq hmoved]
        rfl
    | fault e =>
      rw [choiceFrom_fault hp, choiceFrom_fault hq]
      rfl

theorem shifted_choice {ps qs : List Runner} (h : List.Forall₂ (Shifted d) ps qs) :
    Shifted d (choice ps) (choice qs) := fun _ hpos => shifted_choiceFrom h hpos []

theorem shifted_attempt {p q : Runner} (h : Shifted d p q) : Shifted d (attempt p) (attempt q) := by
  intro pos hpos
  have hq := h pos hpos
  rcases hp : p pos with ⟨outcome, next⟩
  rw [hp] at hq
  cases outcome with
  | success r =>
    rw [attempt_success hp, attempt_success hq]
    rfl
  | failure f =>
    rw [attempt_failure hp, attempt_failure hq]
    rfl
  | fault e =>
    rw [attempt_fault hp, attempt_fault hq]
    rfl

theorem shifted_always (value : Value) (type : Option String) :
    Shifted d (always value type) (always value type) := fun _ _ => rfl

theorem shifted_never (msg : Option String) : Shifted d (never msg) (never msg) := fun _ _ => rfl

theorem shifted_raise (msg : String) : Shifted d (raise msg) (raise msg) := fun _ _ => rfl

section Readers

variable {pre src whole : Sequence} (h : pre.append? src = some whole)

include h

theorem shifted_token {accepts : Value → Bool} {refuse : Int → Value → Failure}
    (hrefuse : ∀ pos v, refuse (pre.length + pos) v = (refuse pos v).shift pre.length) :
    Shifted pre.length (token src accepts refuse) (token whole accepts refuse) := by
  intro pos hpos
  rw [token, token, Sequence.peek_append? h hpos]
  cases src.peek pos with
  | error e => rfl
  | ok item =>
    cases item with
    | none =>
      simp only [hrefuse]
      rfl
    | some v =>
      by_cases hv : accepts v = true
      · simp only [hv, ↓reduceIte, Run.shift, Result.spanning_shift, Int.add_assoc]
      · simp only [hv, hrefuse]
        rfl

theorem shifted_eof : Shifted pre.length (eof src) (eof whole) := by
  intro pos hpos
  rw [eof, eof, Sequence.peek_append? h hpos]
  cases src.peek pos with
  | error e => rfl
  | ok item => cases item <;> rfl

theorem shifted_letters (l : Literal) :
    List.Forall₂ (Shifted pre.length) (letters src l) (letters whole l) := by
  apply List.rel_append
  · exact forall₂_map fun x _ => shifted_token h fun _ _ => rfl
  · exact .cons (shifted_always _ _) .nil

theorem shifted_literal (l : Literal) : Shifted pre.length (literal src l) (literal whole l) :=
  shifted_attempt (shifted_sequence (shifted_letters h l) (accounts_letters l))

theorem shifted_trie (root : Trie) : Shifted pre.length (trie src root) (trie whole root) := by
  intro pos hpos
  have hwalk : (Trie.Walk.start root (pre.length + pos)).run whole =
      ((Trie.Walk.start root pos).run src).map (Trie.Walk.shift pre.length) :=
    Trie.Walk.run_shift h (w := .start root pos) hpos
  cases hrun : (Trie.Walk.start root pos).run src with
  | error e =>
    rw [hrun] at hwalk
    rw [trie_fault hrun, trie_fault hwalk]
    rfl
  | ok w =>
    rw [hrun] at hwalk
    cases hlongest : w.longest with
    | none =>
      rw [trie_failure hrun hlongest, trie_failure hwalk hlongest]
      rfl
    | some m =>
      rw [trie_success hrun hlongest, trie_success hwalk hlongest, Int.add_assoc]
      rfl

end Readers

end Runner

namespace Parser

open Runner

/-- A parser without seeks runs behind a prefix as it does without. -/
theorem shifted_run {pre src whole : Sequence} (h : pre.append? src = some whole) {p : Parser}
    (hp : p.lacks .seek = true) : Shifted pre.length (p.run src) (p.run whole) := by
  induction p with
  | token test report =>
    rw [run, run]
    exact shifted_token h fun pos v => by cases report <;> rfl
  | always value type => exact shifted_always value type
  | never msg => exact shifted_never msg
  | eof => exact shifted_eof h
  | literal l => exact shifted_literal h l
  | trie words => exact shifted_trie h words
  | sequence first rest ih =>
    have hparts := lacks_sequence.mp hp
    rw [run_sequence, run_sequence]
    apply shifted_sequence
    · exact forall₂_map fun q hq => ih q hq (hparts q hq)
    · exact accounts_runs hparts src
  | choice alternatives ih =>
    have hparts := lacks_choice.mp hp
    rw [run_choice, run_choice]
    apply shifted_choice
    exact forall₂_map fun q hq => ih q hq (hparts q hq)
  | attempt body ih => exact shifted_attempt (ih hp)
  | label name body ih => exact ih hp
  | anonymous body ih => exact ih hp
  | seek target succeeds => cases hp
  | raise msg => exact shifted_raise msg

end Parser

/-- What stands before the start of a run has no part in it: behind a prefix a parser without seeks
does the same, at positions that are larger by the length of the prefix. -/
theorem run_behind_prefix {pre src whole : Sequence} (h : pre.append? src = some whole) {p : Parser}
    (hp : p.lacks .seek = true) (pos : Nat) :
    p.run whole (pre.length + pos) = (p.run src pos).shift pre.length :=
  p.shifted_run h hp pos (Int.natCast_nonneg pos)

/-- Behind two more items: the first literal misses and goes back, the second one is read, and then
nothing fits, with a note for each alternative. -/
theorem run_behind_prefix_notes :
    (Sequence.items [.text ['a'], .box 0 (.text ['b'])]).append?
        (.items [.null, .text ['a'], .wrapped .plain ['b'], .int 7]) =
      some (.items [.text ['a'], .box 0 (.text ['b']), .null, .text ['a'], .wrapped .plain ['b'],
        .int 7]) ∧
    (Parser.sequence (.choice [.literal (.ofText ['a', 'c']), .literal (.ofText ['a', 'b'])])
      [.choice [.eof, .never "no"]]).lacks .seek = true ∧
    (Parser.sequence (.choice [.literal (.ofText ['a', 'c']), .literal (.ofText ['a', 'b'])])
        [.choice [.eof, .never "no"]]).run
          (.items [.text ['a'], .box 0 (.text ['b']), .null, .text ['a'], .wrapped .plain ['b'],
            .int 7])
          (2 + 1) =
      ((Parser.sequence (.choice [.literal (.ofText ['a', 'c']), .literal (.ofText ['a', 'b'])])
        [.choice [.eof, .never "no"]]).run
          (.items [.null, .text ['a'], .wrapped .plain ['b'], .int 7]) 1).shift 2 ∧
    ((Parser.sequence (.choice [.literal (.ofText ['a', 'c']), .literal (.ofText ['a', 'b'])])
      [.choice [.eof, .never "no"]]).run
        (.items [.null, .text ['a'], .wrapped .plain ['b'], .int 7]) 1).pos = 3 := by
  have hjoin : (Sequence.items [.text ['a'], .box 0 (.text ['b'])]).append?
      (.items [.null, .text ['a'], .wrapped .plain ['b'], .int 7]) =
        some (.items [.text ['a'], .box 0 (.text ['b']), .null, .text ['a'], .wrapped .plain ['b'],
          .int 7]) := rfl
  have hseek : (Parser.sequence
      (.choice [.literal (.ofText ['a', 'c']), .literal (.ofText ['a', 'b'])])
      [.choice [.eof, .never "no"]]).lacks .seek = true := by decide
  exact ⟨hjoin, hseek, run_behind_prefix hjoin hseek 1, rfl⟩

end Backtrack
