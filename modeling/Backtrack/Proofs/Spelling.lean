import Backtrack.Literal
import Backtrack.Proofs.Reading
import Mathlib.Data.List.Forall2

/-!
# What is spelled

A sequence spells a text if its items are the characters of the text, one by one. So every character
of a literal belongs to the item at the same offset of the literal as it was written.
-/

namespace Backtrack

/-- A check of every member of a list succeeds with the results for the members, one by one. -/
theorem mapM_eq_ok {α β ε : Type} {check : α → Except ε β} {xs : List α} {ys : List β} :
    xs.mapM check = .ok ys ↔ List.Forall₂ (fun x y => check x = .ok y) xs ys := by
  constructor
  · intro h
    induction xs generalizing ys with
    | nil =>
      cases h
      exact .nil
    | cons x xs ih =>
      rw [List.mapM_cons] at h
      cases hx : check x with
      | error e =>
        rw [hx] at h
        cases h
      | ok y =>
        cases hxs : xs.mapM check with
        | error e =>
          rw [hx, hxs] at h
          cases h
        | ok rest =>
          rw [hx, hxs] at h
          cases h
          exact .cons hx (ih hxs)
  · intro h
    induction h with
    | nil => rfl
    | cons hx _ ih =>
      rw [List.mapM_cons, hx, ih]
      rfl

namespace Sequence

theorem mapM_letter_map {make : Char → Value} (h : ∀ c, (make c).letter = .ok c) (t : Text) :
    (t.map make).mapM Value.letter = .ok t := by
  rw [mapM_eq_ok, List.forall₂_map_left_iff, List.forall₂_same]
  intro c _
  exact h c

/-- The items of every sequence are what is spelled, also those of a text. -/
theorem spell_eq_mapM (s : Sequence) : s.spell = s.toItems.mapM Value.letter := by
  have hplain : ∀ c, (Value.text [c]).letter = .ok c := fun _ => rfl
  have hwrapped : ∀ c, (Value.wrapped .plain [c]).letter = .ok c := fun _ => rfl
  cases s with
  | text t => exact (mapM_letter_map hplain t).symm
  | tagged t => exact (mapM_letter_map hplain t).symm
  | wrapped kind t => exact (mapM_letter_map hwrapped t).symm
  | items vs => rfl

theorem spell_eq_ok {s : Sequence} {t : Text} :
    s.spell = .ok t ↔ List.Forall₂ (fun v c => v.letter = .ok c) s.toItems t := by
  rw [spell_eq_mapM, mapM_eq_ok]

end Sequence

namespace Literal

theorem length_written (l : Literal) : l.written.length = l.letters.length := by
  rw [← Sequence.length_toItems]
  exact (Sequence.spell_eq_ok.mp l.spelled).length_eq

theorem item?_written {l : Literal} {i : Nat} {c : Char} (h : l.letters[i]? = some c) :
    ∃ w, l.written.item? i = some w ∧ w.letter = .ok c := by
  obtain ⟨hi, hc⟩ := List.getElem?_eq_some_iff.mp h
  have hspelled := Sequence.spell_eq_ok.mp l.spelled
  have hi' : i < l.written.toItems.length := hspelled.length_eq ▸ hi
  refine ⟨l.written.toItems[i], ?_, ?_⟩
  · rw [Sequence.item?_eq_toItems, List.getElem?_eq_getElem hi']
  · have hletter := hspelled.get hi' hi
    rw [← hc]
    exact hletter

end Literal

end Backtrack
