import Backtrack.Failure
import Backtrack.Parser.Basic
import Backtrack.Proofs.Spelling

/-!
# Presentations of a text

One text can be presented by many sequences: by a text of any kind, or by a list of characters that
are plain, tagged, wrapped or boxed one by one. Two presentations of a text spell it alike, flatten
to it alike and have the same character at every position.
-/

namespace Backtrack

/-- The items are equal once unboxed, whatever the kind of a text. -/
def Value.SameUnboxed (v w : Value) : Prop := v.bare = w.bare

/-- Both items are the same character once unboxed. -/
def Value.SameLetter (v w : Value) : Prop := ∃ c, v.bare = .text [c] ∧ w.bare = .text [c]

/-- The items are the same characters, one by one. -/
def Sequence.SameText (s t : Sequence) : Prop :=
  List.Forall₂ Value.SameLetter s.toItems t.toItems

namespace Value.SameLetter

variable {v w : Value}

theorem bare_eq (h : v.SameLetter w) : v.bare = w.bare := by
  obtain ⟨c, hv, hw⟩ := h
  rw [hv, hw]

theorem letter_eq (h : v.SameLetter w) : ∃ c, v.letter = .ok c ∧ w.letter = .ok c := by
  obtain ⟨c, hv, hw⟩ := h
  exact ⟨c, letter_eq_ok.mpr (letter?_eq_some.mpr hv), letter_eq_ok.mpr (letter?_eq_some.mpr hw)⟩

theorem ne_null (h : v.SameLetter w) : v ≠ .null ∧ w ≠ .null := by
  obtain ⟨c, hv, hw⟩ := h
  constructor
  · intro hnull
    rw [hnull] at hv
    cases hv
  · intro hnull
    rw [hnull] at hw
    cases hw

end Value.SameLetter

namespace Sequence

theorem SameText.spell {s t : Sequence} (h : s.SameText t) :
    ∃ letters, s.spell = .ok letters ∧ t.spell = .ok letters := by
  have hletters : ∀ {vs ws : List Value}, List.Forall₂ Value.SameLetter vs ws → ∃ letters : Text,
      List.Forall₂ (fun v c => v.letter = .ok c) vs letters ∧
      List.Forall₂ (fun w c => w.letter = .ok c) ws letters := by
    intro vs ws hall
    induction hall with
    | nil => exact ⟨[], .nil, .nil⟩
    | cons hletter _ ih =>
      obtain ⟨c, hv, hw⟩ := hletter.letter_eq
      obtain ⟨letters, hvs, hws⟩ := ih
      exact ⟨c :: letters, .cons hv hvs, .cons hw hws⟩
  obtain ⟨letters, hs, ht⟩ := hletters h
  exact ⟨letters, spell_eq_ok.mpr hs, spell_eq_ok.mpr ht⟩

theorem flatten_eq_flatMap (s : Sequence) :
    s.flatten = s.toItems.flatMap fun v => v.unbox.display := by
  cases s with
  | text t => simp [flatten, toItems, Value.display, List.flatMap_map]
  | tagged t => simp [flatten, toItems, Value.display, List.flatMap_map]
  | wrapped kind t => simp [flatten, toItems, Value.ofText, Value.display, List.flatMap_map]
  | items vs => rfl

theorem SameText.flatten {s t : Sequence} (h : s.SameText t) : s.flatten = t.flatten := by
  have hflat : ∀ {vs ws : List Value}, List.Forall₂ Value.SameLetter vs ws →
      (vs.flatMap fun v => v.unbox.display) = ws.flatMap fun v => v.unbox.display := by
    intro vs ws hall
    induction hall with
    | nil => rfl
    | cons hletter _ ih =>
      rw [List.flatMap_cons, List.flatMap_cons, Value.display_congr hletter.bare_eq, ih]
  rw [flatten_eq_flatMap, flatten_eq_flatMap]
  exact hflat h

theorem SameText.length {s t : Sequence} (h : s.SameText t) : s.length = t.length := by
  rw [← length_toItems s, ← length_toItems t]
  exact List.Forall₂.length_eq h

theorem SameText.item? {s t : Sequence} (h : s.SameText t) (i : Nat) :
    (s.item? i = none ∧ t.item? i = none) ∨
      ∃ v w, v.SameLetter w ∧ s.item? i = some v ∧ t.item? i = some w := by
  rcases Nat.lt_or_ge i s.length with hi | hi
  · have hs : i < s.toItems.length := by rwa [length_toItems]
    have ht : i < t.toItems.length := by rwa [length_toItems, ← h.length]
    refine .inr ⟨s.toItems[i], t.toItems[i], List.Forall₂.get h hs ht, ?_, ?_⟩
    · rw [item?_eq_toItems, List.getElem?_eq_getElem hs]
    · rw [item?_eq_toItems, List.getElem?_eq_getElem ht]
  · exact .inl ⟨item?_eq_none.mpr hi, item?_eq_none.mpr (h.length ▸ hi)⟩

/-- Where the one ends the other does too, and elsewhere both have the same character. -/
theorem SameText.peek {s t : Sequence} (h : s.SameText t) {pos : Int}
    (hpos : -(s.length : Int) ≤ pos) :
    (s.peek pos = .ok none ∧ t.peek pos = .ok none) ∨
      ∃ v w, v.SameLetter w ∧ s.peek pos = .ok (some v) ∧ t.peek pos = .ok (some w) := by
  have hitem : ∃ i, s.peek pos = .ok (s.item? i) ∧ t.peek pos = .ok (t.item? i) := by
    cases pos with
    | ofNat i => exact ⟨i, rfl, rfl⟩
    | negSucc i =>
      have hi : i < s.length := by omega
      have hi' : i < t.length := h.length ▸ hi
      refine ⟨s.length - (i + 1), ?_, ?_⟩
      · rw [Sequence.peek, if_pos hi]
      · rw [Sequence.peek, if_pos hi', h.length]
  obtain ⟨i, hs, ht⟩ := hitem
  rw [hs, ht]
  rcases h.item? i with ⟨hns, hnt⟩ | ⟨v, w, hletter, hv, hw⟩
  · exact .inl ⟨congrArg Except.ok hns, congrArg Except.ok hnt⟩
  · exact .inr ⟨v, w, hletter, congrArg Except.ok hv, congrArg Except.ok hw⟩

theorem SameText.peek_item {s t : Sequence} (h : s.SameText t) {pos : Int}
    (hpos : -(s.length : Int) ≤ pos) {v : Value} (hv : s.peek pos = .ok (some v)) :
    ∃ w, v.SameLetter w ∧ t.peek pos = .ok (some w) := by
  rcases h.peek hpos with ⟨hs, _⟩ | ⟨v', w, hletter, hv', hw⟩
  · rw [hs] at hv
    cases hv
  · rw [hv] at hv'
    cases hv'
    exact ⟨w, hletter, hw⟩

end Sequence

/-- A test looks at the bare item only. -/
theorem Test.accepts_congr (test : Test) {v w : Value} (h : v.bare = w.bare) :
    test.accepts v = test.accepts w := by
  cases test with
  | all => rfl
  | nothing => rfl
  | same u => exact Value.sameChar_congr h u
  | matching pattern flags => rw [accepts, accepts, Value.display_congr h]
  | within letters => simp only [accepts, isOneOf, Value.letter?_congr h]
  | outside letters => simp only [accepts, isOneOf, Value.letter?_congr h]

/-- The items found by two failures: the end of the input for both, or the same character. -/
def Value.SameFound (v w : Value) : Prop := (v = .null ∧ w = .null) ∨ v.SameLetter w

namespace Value.SameFound

variable {v w : Value}

theorem bare_eq (h : v.SameFound w) : v.bare = w.bare := by
  rcases h with ⟨rfl, rfl⟩ | hletter
  · rfl
  · exact hletter.bare_eq

theorem describeFound_eq (h : v.SameFound w) : describeFound v = describeFound w := by
  rcases h with ⟨rfl, rfl⟩ | hletter
  · rfl
  · rw [describeFound_item hletter.ne_null.1, describeFound_item hletter.ne_null.2,
      Value.display_congr hletter.bare_eq]

end Value.SameFound

end Backtrack
