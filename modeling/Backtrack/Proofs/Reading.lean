import Backtrack.Sequence
import Mathlib.Data.List.Basic

/-!
# What a source reads

From a position that is not before the first item every item can be read. A source reads a word
from a position if the items there are the characters of the word, plain or not. Of two words read
from one position the shorter is a prefix of the longer.
-/

namespace Backtrack

namespace Sequence

theorem peek_isOk {s : Sequence} {pos : Int} (h : -(s.length : Int) ≤ pos) :
    ∃ item, s.peek pos = .ok item := by
  cases pos with
  | ofNat i => exact ⟨_, rfl⟩
  | negSucc i =>
    have hi : i < s.length := by omega
    exact ⟨_, by rw [peek, if_pos hi]⟩

/-- The input ends where there is nothing to peek at. -/
theorem peek_eq_end {s : Sequence} {pos : Int} : s.peek pos = .ok none ↔ s.length ≤ pos := by
  cases pos with
  | ofNat i =>
    rw [Int.ofNat_eq_natCast, Int.ofNat_le, ← item?_eq_none]
    exact ⟨Except.ok.inj, congrArg Except.ok⟩
  | negSucc i =>
    have hneg : ¬ (s.length : Int) ≤ Int.negSucc i := by omega
    rw [iff_false_right hneg, peek]
    split
    · intro h
      have hnone := item?_eq_none.mp (Except.ok.inj h)
      omega
    · intro h
      cases h

/-- From `pos` on, the items are the characters of the word once unboxed. -/
def Reads (s : Sequence) (pos : Int) (word : Text) : Prop :=
  ∀ i (h : i < word.length), ∃ v, s.peek (pos + i) = .ok (some v) ∧ v.bare = .text [word[i]]

theorem reads_nil (s : Sequence) (pos : Int) : s.Reads pos [] := by
  intro i h
  simp at h

theorem reads_cons {s : Sequence} {pos : Int} {c : Char} {word : Text} :
    s.Reads pos (c :: word) ↔
      (∃ v, s.peek pos = .ok (some v) ∧ v.bare = .text [c]) ∧ s.Reads (pos + 1) word := by
  have hshift : ∀ i : Nat, pos + 1 + i = pos + ((i + 1 : Nat) : Int) := by intro i; omega
  constructor
  · intro h
    refine ⟨?_, ?_⟩
    · have h0 := h 0 (by simp)
      simpa using h0
    · intro i hi
      rw [hshift]
      have hn := h (i + 1) (by simpa using hi)
      simpa using hn
  · rintro ⟨h0, h⟩ i hi
    cases i with
    | zero => simpa using h0
    | succ i =>
      have hn := h i (by simpa using hi)
      rw [hshift] at hn
      simpa using hn

theorem reads_append {s : Sequence} {pos : Int} {u w : Text} :
    s.Reads pos (u ++ w) ↔ s.Reads pos u ∧ s.Reads (pos + u.length) w := by
  induction u generalizing pos with
  | nil => simp [reads_nil]
  | cons c u ih =>
    have hlen : pos + 1 + u.length = pos + ((c :: u).length : Int) := by
      rw [List.length_cons]
      omega
    rw [List.cons_append, reads_cons, reads_cons, ih, hlen, and_assoc]

theorem reads_singleton {s : Sequence} {pos : Int} {c : Char} :
    s.Reads pos [c] ↔ ∃ v, s.peek pos = .ok (some v) ∧ v.bare = .text [c] := by
  rw [reads_cons, iff_true_intro (reads_nil s (pos + 1)), and_true]

/-- A word that is read ends within the source. -/
theorem Reads.stop_le {s : Sequence} {pos : Int} {word : Text} (h : s.Reads pos word) :
    pos + word.length ≤ max pos s.length := by
  induction word generalizing pos with
  | nil => rw [List.length_nil]; omega
  | cons c word ih =>
    obtain ⟨⟨v, hv, _⟩, hrest⟩ := reads_cons.mp h
    have hpos := lt_length_of_peek hv
    have hstop := ih hrest
    rw [List.length_cons]
    omega

theorem Reads.prefix_of_le {s : Sequence} {pos : Int} {u w : Text} (hu : s.Reads pos u)
    (hw : s.Reads pos w) (h : u.length ≤ w.length) : u <+: w := by
  induction u generalizing pos w with
  | nil => exact List.nil_prefix
  | cons c u ih =>
    cases w with
    | nil => simp at h
    | cons d w =>
      obtain ⟨⟨v, hv, hc⟩, hu'⟩ := reads_cons.mp hu
      obtain ⟨⟨v', hv', hd⟩, hw'⟩ := reads_cons.mp hw
      have hvv : v = v' := by
        rw [hv] at hv'
        exact Option.some.inj (Except.ok.inj hv')
      subst hvv
      have hcd : c = d := by
        rw [hc] at hd
        cases hd
        rfl
      subst hcd
      have hlen : u.length ≤ w.length := Nat.le_of_succ_le_succ h
      exact (List.prefix_cons_inj c).mpr (ih hu' hw' hlen)

/-- A word that is read up to a length is read as a whole or cut there. -/
theorem Reads.of_prefix {s : Sequence} {pos : Int} {u w : Text} (hw : s.Reads pos w)
    (h : u <+: w) : s.Reads pos u := by
  obtain ⟨v, rfl⟩ := h
  exact (reads_append.mp hw).1

end Sequence

end Backtrack
