import Backtrack.Proofs.Column
import Backtrack.Proofs.Presentation.Text

/-!
# Places of items

A failure points at an item, and its first note shows a place in the text of the source. Positions
count items, and the place takes them for offsets in the text. So the line and the column are those of
the item if the texts of the items before it have as many characters together as there are items, as
in every sequence of single characters. Otherwise they are those of the item only if it begins at the
end of the text and its position lies behind that.
-/

namespace Backtrack

namespace Sequence

variable (s : Sequence) (p : Nat)

/-- Where the text of item `p` begins in the text of the whole: behind the texts of the items before,
as many characters as these have together. -/
def offset : Nat := ((s.toItems.take p).flatMap fun v => v.unbox.display).length

theorem flatten_split : s.flatten =
    ((s.toItems.take p).flatMap fun v => v.unbox.display) ++
      (s.toItems.drop p).flatMap fun v => v.unbox.display := by
  rw [flatten_eq_flatMap, ← List.flatMap_append, List.take_append_drop]

theorem offset_le_length : s.offset p ≤ s.flatten.length := by
  rw [offset, flatten_split s p, List.length_append]
  exact Nat.le_add_right _ _

theorem drop_offset : s.flatten.drop (s.offset p) =
    (s.toItems.drop p).flatMap fun v => v.unbox.display := by
  rw [flatten_split s p, offset]
  exact List.drop_left

variable {s p}

/-- The text of the item stands at its offset. -/
theorem display_prefix_drop_offset {v : Value} (h : s.item? p = some v) :
    v.unbox.display <+: s.flatten.drop (s.offset p) := by
  rw [item?_eq_toItems] at h
  obtain ⟨hp, rfl⟩ := List.getElem?_eq_some_iff.mp h
  rw [drop_offset, List.drop_eq_getElem_cons hp, List.flatMap_cons]
  exact List.prefix_append _ _

/-- Behind single characters the offset of an item is its position. -/
theorem offset_of_characters (hp : p ≤ s.length)
    (h : ∀ v ∈ s.toItems.take p, v.unbox.display.length = 1) : s.offset p = p := by
  rw [offset, List.length_flatMap, List.map_congr_left h, List.map_const', List.sum_replicate_nat,
    List.length_take, length_toItems, Nat.min_eq_left hp, Nat.mul_one]

end Sequence

namespace Place

open Text (exists_stands)

/-- The line and the column are those of an offset in the text: they count the line feeds before it,
and the characters behind the last of these. -/
structure At (place : Place) (t : Text) (offset : Nat) : Prop where
  line : place.line = (t.take offset).count '\n' + 1
  column : ∃ u m : Text, t.take offset = u ++ m ∧ u.OpensLine ∧ '\n' ∉ m ∧ place.column = m.length + 1

variable {t : Text} {o q : Nat}

theorem at_of (ho : o ≤ t.length) : (Place.of t o).At t o := by
  obtain ⟨u, m, w, h⟩ := exists_stands ho
  refine ⟨line_eq ho, u, m, h.take, h.opens, h.noLineFeed, ?_⟩
  rw [of_stands h]

/-- An offset has one line and one column. -/
theorem At.unique {place place' : Place} (h : place.At t o) (h' : place'.At t o) :
    place.line = place'.line ∧ place.column = place'.column := by
  refine ⟨h.line.trans h'.line.symm, ?_⟩
  obtain ⟨u, m, hsplit, hu, hm, hcolumn⟩ := h.column
  obtain ⟨u', m', hsplit', hu', hm', hcolumn'⟩ := h'.column
  have hlength : m.length = m'.length := by
    rw [← sinceLineFeed_append hu hm, ← sinceLineFeed_append hu' hm', ← hsplit, ← hsplit']
  omega

/-- The place of one offset is at no other. -/
theorem at_iff (hq : q ≤ t.length) (ho : o ≤ t.length) : (Place.of t q).At t o ↔ q = o := by
  constructor
  · intro h
    obtain ⟨hline, hcolumn⟩ := h.unique (at_of ho)
    exact eq_of_line_column hq ho hline hcolumn
  · intro h
    subst h
    exact at_of hq

/-- A position is shown as an offset, or as the end if that comes first. -/
theorem of_eq_of_min (t : Text) (p : Nat) :
    Place.of t p = Place.of t (min p t.length : Nat) := by
  rcases Nat.le_total p t.length with hp | hp
  · rw [Nat.min_eq_left hp]
  · rw [Nat.min_eq_right hp]
    exact of_beyond (by omega)

end Place

/-- A failure becomes an error unless another note of it cannot be rendered, and the first note of the
error is the place of the failure. -/
theorem Failure.toError_first_note (src : Sequence) (p : Nat) (cause : Cause) {notes : List Note}
    (hnotes : ∀ n ∈ notes, ¬ Place.IsFar src.flatten n.pos) :
    ∃ e shown, Failure.toError { pos := p, cause, notes } src = .ok e ∧
      (Place.of src.flatten p).excerpt = .ok shown ∧
      e.notes.head? = some ((Place.of src.flatten p).note shown none) := by
  obtain ⟨shown, hshown, hnote⟩ := Place.exists_note src.flatten p
  obtain ⟨rest, hrest⟩ := ParseError.exists_renders fun n hn => hnotes n (List.mem_reverse.mp hn)
  exact ⟨_, shown, toError_of_renders (.cons (hnote none) hrest), hshown, rfl⟩

/-- The first note of an error shows the line and the column of the failure's position, taken as an
offset in the text and as its end at most. They are those of the item at the position exactly if the
text of the item begins there. That is so if all items before it are shown as single characters. There
is an error unless another note of the failure lies far before the text. -/
theorem first_note_names_item_iff (src : Sequence) {p : Nat} (hp : p < src.length) (cause : Cause)
    (notes : List Note) :
    ((∀ n ∈ notes, ¬ Place.IsFar src.flatten n.pos) →
      ∃ e shown, Failure.toError { pos := p, cause, notes } src = .ok e ∧
        (Place.of src.flatten p).excerpt = .ok shown ∧
        e.notes.head? = some ((Place.of src.flatten p).note shown none)) ∧
      (Place.of src.flatten p).At src.flatten (min p src.flatten.length) ∧
      (∃ v, src.item? p = some v ∧ v.unbox.display <+: src.flatten.drop (src.offset p)) ∧
      ((Place.of src.flatten p).At src.flatten (src.offset p) ↔
        min p src.flatten.length = src.offset p) ∧
      ((∀ v ∈ src.toItems.take p, v.unbox.display.length = 1) →
        (Place.of src.flatten p).At src.flatten (src.offset p)) := by
  have hmin : min p src.flatten.length ≤ src.flatten.length := Nat.min_le_right _ _
  have hoffset := src.offset_le_length p
  have hiff : (Place.of src.flatten p).At src.flatten (src.offset p) ↔
      min p src.flatten.length = src.offset p := by
    rw [Place.of_eq_of_min]
    exact Place.at_iff hmin hoffset
  refine ⟨Failure.toError_first_note src p cause, ?_, ?_, hiff, ?_⟩
  · rw [Place.of_eq_of_min]
    exact Place.at_of hmin
  · have hitem : p < src.toItems.length := by rwa [Sequence.length_toItems]
    have hv : src.item? p = some src.toItems[p] := by
      rw [Sequence.item?_eq_toItems, List.getElem?_eq_getElem hitem]
    exact ⟨_, hv, Sequence.display_prefix_drop_offset hv⟩
  · intro hcharacters
    rw [hiff, Sequence.offset_of_characters (Nat.le_of_lt hp) hcharacters]
    rw [Sequence.offset_of_characters (Nat.le_of_lt hp) hcharacters] at hoffset
    exact Nat.min_eq_left hoffset

/-- A number on the second line, behind a boxed character and a line feed. -/
theorem first_note_names_item_number :
    2 < (Sequence.items [.box 0 (.text ['a']), .text ['\n'], .int 75]).length ∧
    (∀ v ∈ (Sequence.items [.box 0 (.text ['a']), .text ['\n'], .int 75]).toItems.take 2,
      v.unbox.display.length = 1) ∧
    (∃ e shown, Failure.toError { pos := 2, cause := .plain none }
        (.items [.box 0 (.text ['a']), .text ['\n'], .int 75]) = .ok e ∧
      (Place.of ['a', '\n', '7', '5'] 2).excerpt = .ok shown ∧
      e.notes.head? = some ((Place.of ['a', '\n', '7', '5'] 2).note shown none)) ∧
    (Place.of ['a', '\n', '7', '5'] 2).At ['a', '\n', '7', '5'] 2 := by
  have hp : 2 < (Sequence.items [.box 0 (.text ['a']), .text ['\n'], .int 75]).length := by decide
  have hcharacters : ∀ v ∈ (Sequence.items
      [.box 0 (.text ['a']), .text ['\n'], .int 75]).toItems.take 2,
      v.unbox.display.length = 1 := by
    simp [Sequence.toItems, Value.unbox, Value.unwrap, Value.display]
  obtain ⟨hnote, -, -, -, hplace⟩ := first_note_names_item_iff _ hp (.plain none) []
  exact ⟨hp, hcharacters, hnote (List.forall_mem_nil _), hplace hcharacters⟩

/-- So a note may name another item. Behind a text of two characters the second item begins at offset
2, in column 3, and the note on position 1 shows column 2. -/
theorem first_note_misses_item :
    (Failure.toError { pos := 1, cause := .plain none }
      (.items [.text ['a', 'b'], .text ['c']])).map ParseError.notes =
        .ok ["At position 1 (line 1, column 2)\nabc\n ^"] ∧
    (Sequence.items [.text ['a', 'b'], .text ['c']]).flatten = ['a', 'b', 'c'] ∧
    (Sequence.items [.text ['a', 'b'], .text ['c']]).offset 1 = 2 ∧
    (Place.of ['a', 'b', 'c'] 2).line = 1 ∧ (Place.of ['a', 'b', 'c'] 2).column = 3 ∧
    ¬ (Place.of ['a', 'b', 'c'] 1).At ['a', 'b', 'c'] 2 := by
  refine ⟨by decide +kernel, rfl, rfl, rfl, rfl, ?_⟩
  intro h
  have heq := (Place.at_iff (by decide) (by decide)).mp h
  exact absurd heq (by decide)

end Backtrack
