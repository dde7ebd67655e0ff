import Backtrack.Sequence

/-!
# Literals

A literal is a sequence of characters together with the text it spells. It keeps the sequence as it
was written, because a match yields the literal in that form.
-/

namespace Backtrack

structure Literal where
  written : Sequence
  letters : Text
  spelled : written.spell = .ok letters

namespace Literal

def ofSequence (s : Sequence) : Except Misuse Literal :=
  match h : s.spell with
  | .ok letters => .ok ⟨s, letters, h⟩
  | .error e => .error e

def ofText (t : Text) : Literal := ⟨.text t, t, rfl⟩

theorem ofSequence_of_spell {s : Sequence} {letters : Text} (h : s.spell = .ok letters) :
    ofSequence s = .ok ⟨s, letters, h⟩ := by
  unfold ofSequence
  split
  · next h' =>
    rw [h] at h'
    cases h'
    rfl
  · next h' =>
    rw [h] at h'
    cases h'

theorem written_of_ofSequence {s : Sequence} {l : Literal} (h : ofSequence s = .ok l) :
    l.written = s := by
  unfold ofSequence at h
  split at h
  · cases h; rfl
  · cases h

theorem ofSequence_eq_error {s : Sequence} {e : Misuse} :
    ofSequence s = .error e ↔ s.spell = .error e := by
  unfold ofSequence
  split
  · next h => simp [h]
  · next h => simp [h]

end Literal

end Backtrack
