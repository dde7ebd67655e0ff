import Backtrack.Proofs.Building
import Backtrack.Proofs.Literal

/-!
# Literals match exactly

A literal compares its characters with the items behind the position one by one. It succeeds if all
of them fit and yields itself as it was written. Otherwise it goes back to where it started and
reports the first offset that does not fit, with the character that was expected there and the item
that was found. Starts beyond the end and literals without characters are no exceptions.
-/

namespace Backtrack

namespace Sequence

/-- The item at offset `i` from the position is the character of the word at that offset. -/
def Fits (src : Sequence) (pos : Nat) (word : Text) (i : Nat) : Prop :=
  ∃ v c, src.item? (pos + i) = some v ∧ word[i]? = some c ∧ v.sameChar (.text [c]) = true

theorem peek_add (src : Sequence) (pos i : Nat) :
    src.peek ((pos : Int) + i) = .ok (src.item? (pos + i)) := rfl

theorem reads_iff_fits {src : Sequence} {pos : Nat} {word : Text} :
    src.Reads pos word ↔ ∀ i < word.length, src.Fits pos word i := by
  constructor
  · intro h i hi
    obtain ⟨v, hv, hletter⟩ := h i hi
    rw [peek_add] at hv
    exact ⟨v, word[i], Except.ok.inj hv, List.getElem?_eq_getElem hi,
      Value.sameChar_text.mpr hletter⟩
  · intro h i hi
    obtain ⟨v, c, hv, hc, hsame⟩ := h i hi
    obtain ⟨_, rfl⟩ := List.getElem?_eq_some_iff.mp hc
    exact ⟨v, by rw [peek_add, hv], Value.sameChar_text.mp hsame⟩

namespace FirstMiss

variable {src : Sequence} {pos : Nat} {word : Text} {i : Nat} {c : Char} {found : Value}

/-- Everything before the first miss fits. -/
theorem fits_before (h : src.FirstMiss pos word i c found) : ∀ j < i, src.Fits pos word j := by
  intro j hj
  obtain ⟨hi, -⟩ := List.getElem?_eq_some_iff.mp h.char
  have hlength : (word.take i).length = i := List.length_take_of_le (Nat.le_of_lt hi)
  obtain ⟨v, d, hv, hd, hsame⟩ := reads_iff_fits.mp h.reads j (hlength.symm ▸ hj)
  rw [List.getElem?_take_of_lt hj] at hd
  exact ⟨v, d, hv, hd, hsame⟩

theorem not_fits (h : src.FirstMiss pos word i c found) : ¬ src.Fits pos word i := by
  rintro ⟨v, d, hv, hd, hsame⟩
  have hdc : d = c := Option.some.inj (hd.symm.trans h.char)
  subst hdc
  rcases h.found with ⟨hend, -⟩ | ⟨hitem, hne⟩
  · rw [peek_add, hv] at hend
    cases hend
  · rw [peek_add, hv] at hitem
    cases hitem
    exact hne (Value.sameChar_text.mp hsame)

/-- What is found at the first miss is the item there, or the null item at the end. -/
theorem found_eq (h : src.FirstMiss pos word i c found) :
    found = (src.item? (pos + i)).getD .null := by
  rcases h.found with ⟨hend, rfl⟩ | ⟨hitem, -⟩
  · rw [peek_add] at hend
    rw [Except.ok.inj hend, Option.getD_none]
  · rw [peek_add] at hitem
    rw [Except.ok.inj hitem, Option.getD_some]

end FirstMiss

end Sequence

theorem message_mismatch (l : Literal) (i : Nat) (c : Char) (found : Value) :
    let what := describeFound found
    (Cause.mismatch l i (String.singleton c) found).message =
      some s!"In string:'{String.ofList l.letters}' at index:{i}, Expected:{c} Found:{what}" := by
  have hstring : ∀ s : String, toString s = s := fun _ => rfl
  have hindex : toString (i : Int) = toString i := rfl
  have hchar : toString c = String.singleton c := rfl
  simp only [Cause.message, hstring, hindex, hchar, String.append_assoc]

/-- A literal takes exactly its characters and yields itself, or it fails without moving at the
first offset that does not fit. -/
theorem literal_matches_exactly (l : Literal) (src : Sequence) (pos : Nat) :
    ∃ p, (Grammar.string l.written).build.result = .ok p ∧
      (((∀ i < l.letters.length, src.Fits pos l.letters i) ∧
          p.run src pos =
            { outcome := .success
                { type := some "string", range := some (pos, pos + l.letters.length),
                  value := l.written.toValue }
              pos := pos + l.letters.length }) ∨
        ∃ (i : Nat) (c : Char) (found : Value) (what : String),
          (∀ j < i, src.Fits pos l.letters j) ∧ ¬ src.Fits pos l.letters i ∧
          l.letters[i]? = some c ∧ found = (src.item? (pos + i)).getD .null ∧
          (found = .null → what = "end of input") ∧
          (found ≠ .null → what = String.ofList found.unbox.display) ∧
          (Cause.mismatch l i (String.singleton c) found).message =
            some s!"In string:'{String.ofList l.letters}' at index:{i}, Expected:{c} Found:{what}" ∧
          p.run src pos =
            { outcome := .failure
                { pos := pos + i, cause := .mismatch l i (String.singleton c) found, notes := [] }
              pos := pos }) := by
  refine ⟨.literal l, Grammar.build_string_eq_ok.mpr ⟨l, rfl, rfl⟩, ?_⟩
  have hpos : -(src.length : Int) ≤ pos := by omega
  rcases Runner.literal_run l hpos with
    ⟨hreads, hrun⟩ | ⟨i, c, found, hmiss, hrun⟩
  · exact .inl ⟨Sequence.reads_iff_fits.mp hreads, hrun⟩
  · refine .inr ⟨i, c, found, describeFound found, hmiss.fits_before, hmiss.not_fits, hmiss.char,
      hmiss.found_eq, ?_, describeFound_item, message_mismatch l i c found, hrun⟩
    rintro rfl
    rfl

end Backtrack
