import Backtrack.Proofs.Rendering

/-!
# Lines and columns

Line and column of a place encode a position: the line counts the line feeds before it, and the
column what stands behind the last of these. So a later position has a larger line, or a larger
column in the same line, and no two positions of a text share both. Excerpts have no part in this.
-/

namespace Backtrack

/-- Position `p` stands behind `m` on the line that begins behind `u`, and `w` is what follows. -/
structure Text.Stands (t : Text) (p : Nat) (u m w : Text) : Prop where
  split : t = u ++ m ++ w
  pos : p = u.length + m.length
  opens : u.OpensLine
  noLineFeed : '\n' ∉ m

namespace Text

variable {t u m w : Text} {p q : Nat}

theorem exists_stands (hp : p ≤ t.length) : ∃ u m w, t.Stands p u m w := by
  obtain ⟨u, m, hsplit, hu, hm⟩ := exists_last_line (t.take p)
  refine ⟨u, m, t.drop p, ?_, ?_, hu, hm⟩
  · rw [← hsplit, List.take_append_drop]
  · rw [← List.length_append, ← hsplit, List.length_take_of_le hp]

theorem Stands.take (h : t.Stands p u m w) : t.take p = u ++ m := by
  rw [h.split, h.pos]
  exact List.take_left' List.length_append

theorem Stands.drop (h : t.Stands p u m w) : t.drop p = w := by
  rw [h.split, h.pos]
  exact List.drop_left' List.length_append

theorem Stands.count_take (h : t.Stands p u m w) : (t.take p).count '\n' = u.count '\n' := by
  rw [h.take, List.count_append, List.count_eq_zero.mpr h.noLineFeed, Nat.add_zero]

/-- A later position with no line feed in between stands on the same line. -/
theorem Stands.later (h : t.Stands p u m w) (hpq : p ≤ q) (hq : q ≤ t.length)
    (hfeed : '\n' ∉ w.take (q - p)) : t.Stands q u (m ++ w.take (q - p)) (w.drop (q - p)) := by
  refine ⟨?_, ?_, h.opens, ?_⟩
  · rw [List.append_assoc, List.append_assoc, List.take_append_drop, ← List.append_assoc]
    exact h.split
  · have hlength : w.length = t.length - p := by rw [← h.drop, List.length_drop]
    have hpos := h.pos
    rw [List.length_append, List.length_take]
    omega
  · rw [List.mem_append, not_or]
    exact ⟨h.noLineFeed, hfeed⟩

/-- Between the beginning of the line and the position there is no line feed. -/
theorem Stands.ne_lineFeed (h : t.Stands p u m w) {i : Nat} (hlow : u.length ≤ i) (hlt : i < p) :
    t[i]? ≠ some '\n' := by
  intro hfeed
  have hinside : i < (u ++ m).length := by
    rw [List.length_append, ← h.pos]
    exact hlt
  rw [h.split, List.getElem?_append_left hinside, List.getElem?_append_right hlow] at hfeed
  exact h.noLineFeed (List.mem_of_getElem? hfeed)

/-- The line begins at the start of the text or behind a line feed. -/
theorem Stands.before (h : t.Stands p u m w) :
    u.length = 0 ∨ 0 < u.length ∧ t[u.length - 1]? = some '\n' := by
  cases hlast : u.getLast? with
  | none => exact .inl (List.length_eq_zero_iff.mpr (List.getLast?_eq_none_iff.mp hlast))
  | some c =>
    have hne : 0 < u.length := by
      rw [List.length_pos_iff]
      rintro rfl
      cases hlast
    refine .inr ⟨hne, ?_⟩
    rw [h.split, List.append_assoc, List.getElem?_append_left (Nat.sub_lt hne Nat.one_pos),
      ← List.getLast?_eq_getElem?, hlast, h.opens c hlast]

end Text

namespace Place

open Text (Stands exists_stands)

variable {t u m w : Text} {p q : Nat}

theorem sinceLineFeed_append (hu : u.OpensLine) (hm : '\n' ∉ m) :
    sinceLineFeed (u ++ m) = m.length := by
  have hkeep : ∀ c ∈ m.reverse, (c != '\n') = true := by
    intro c hc
    rw [bne_iff_ne]
    rintro rfl
    exact hm (List.mem_reverse.mp hc)
  have hstop : u.reverse.takeWhile (· != '\n') = [] := by
    cases hrev : u.reverse with
    | nil => rfl
    | cons c v =>
      have hc : c = '\n' := by
        refine hu c ?_
        rw [Option.mem_def, List.getLast?_eq_head?_reverse, hrev]
        rfl
      rw [List.takeWhile_cons_of_neg (by simp [hc])]
  rw [sinceLineFeed, List.reverse_append, List.takeWhile_append_of_pos hkeep, hstop,
    List.append_nil, List.length_reverse]

/-- The place of a position within the text or at its end. -/
theorem of_stands (h : t.Stands p u m w) :
    Place.of t p =
      { pos := p, line := u.count '\n' + 1, column := m.length + 1
        excerpt := excerptOf t (u.count '\n' + 1) (m.length + 1) } := by
  have hlength : t.length = p + w.length := by
    rw [h.split, h.pos, List.length_append, List.length_append]
  have hmin : min (p : Int) t.length = p := by omega
  have hcolumn : (p : Int) - ((u ++ m).length - m.length - 1) = m.length + 1 := by
    rw [h.pos, List.length_append]
    omega
  rw [Place.of]
  simp only [hmin, Text.upTo_ofNat, h.count_take]
  rw [h.take, sinceLineFeed_append h.opens h.noLineFeed, hcolumn]

theorem line_eq (hp : p ≤ t.length) : (Place.of t p).line = (t.take p).count '\n' + 1 := by
  obtain ⟨u, m, w, h⟩ := exists_stands hp
  rw [of_stands h, h.count_take]

/-- The line and the column are those of position `p`, and every note on `p` tells them. -/
structure Encodes (place : Place) (t : Text) (p : Nat) : Prop where
  pos : place.pos = p
  line : place.line - 1 = (t.take p).count '\n'
  line_pos : 1 ≤ place.line
  column_pos : 1 ≤ place.column
  column_le : place.column ≤ p + 1
  noLineFeed : ∀ i : Nat, p - (place.column - 1) ≤ i → i < p → t[i]? ≠ some '\n'
  begins : place.column - 1 = p ∨ ∃ i : Nat, (i : Int) = p - place.column ∧ t[i]? = some '\n'
  shown : ∃ shown, place.excerpt = .ok shown ∧
    ∀ msg, ParseError.renderNote t ⟨p, msg⟩ = .ok (place.note shown msg)

theorem encodes_of (hp : p ≤ t.length) : (Place.of t p).Encodes t p := by
  obtain ⟨u, m, w, h⟩ := exists_stands hp
  have hpos := h.pos
  have hcolumn : (Place.of t p).column = m.length + 1 := by rw [of_stands h]
  refine ⟨?_, ?_, ?_, ?_, ?_, ?_, ?_, exists_note t p⟩
  · rw [of_stands h]
  · rw [line_eq hp, Nat.add_sub_cancel]
  · rw [line_eq hp]
    exact Nat.succ_pos _
  · omega
  · omega
  · intro i hlow hlt
    exact h.ne_lineFeed (by omega) hlt
  · rcases h.before with hstart | ⟨hne, hfeed⟩
    · left
      omega
    · exact .inr ⟨u.length - 1, by omega, hfeed⟩

/-- A line feed in between makes a larger line, and without one the column grows. -/
theorem lt_of_lt (h : p < q) (hq : q ≤ t.length) :
    (Place.of t p).line < (Place.of t q).line ∨
      (Place.of t p).line = (Place.of t q).line ∧ (Place.of t p).column < (Place.of t q).column := by
  have hle := Nat.le_of_lt h
  obtain ⟨u, m, w, hp⟩ := exists_stands (Nat.le_trans hle hq)
  by_cases hfeed : '\n' ∈ w.take (q - p)
  · left
    have hsplit : t.take q = t.take p ++ w.take (q - p) := by
      rw [← hp.drop, ← List.take_add, Nat.add_sub_cancel' hle]
    have hcount := List.count_pos_iff.mpr hfeed
    rw [line_eq (Nat.le_trans hle hq), line_eq hq, hsplit, List.count_append]
    omega
  · right
    have hlater := hp.later hle hq hfeed
    have hposp := hp.pos
    have hposq := hlater.pos
    rw [of_stands hp, of_stands hlater]
    refine ⟨rfl, ?_⟩
    show (m.length : Int) + 1 < (m ++ w.take (q - p)).length + 1
    omega

theorem eq_of_line_column (hp : p ≤ t.length) (hq : q ≤ t.length)
    (hline : (Place.of t p).line = (Place.of t q).line)
    (hcolumn : (Place.of t p).column = (Place.of t q).column) : p = q := by
  rcases Nat.lt_trichotomy p q with h | h | h
  · rcases lt_of_lt h hq with hlt | ⟨_, hlt⟩ <;> omega
  · exact h
  · rcases lt_of_lt h hp with hlt | ⟨_, hlt⟩ <;> omega

/-- A position beyond the end has the place of the end. -/
theorem of_beyond {pos : Int} (h : t.length ≤ pos) : Place.of t pos = Place.of t t.length := by
  rw [Place.of, Place.of, Int.min_eq_right h, Int.min_self]

end Place

/-- Line and column encode a position of the text, in lexicographic order, and positions beyond the
end are shown as the end. -/
theorem place_encodes_position (t : Text) :
    (∀ p ≤ t.length, (Place.of t p).Encodes t p) ∧
    (∀ p ≤ t.length, ∀ q ≤ t.length, (Place.of t p).line = (Place.of t q).line →
      (Place.of t p).column = (Place.of t q).column → p = q) ∧
    (∀ p q : Nat, p < q → q ≤ t.length →
      (Place.of t p).line < (Place.of t q).line ∨
        (Place.of t p).line = (Place.of t q).line ∧
          (Place.of t p).column < (Place.of t q).column) ∧
    ∀ (pos : Int) (msg : Option String), t.length ≤ pos →
      ParseError.renderNote t ⟨pos, msg⟩ = ParseError.renderNote t ⟨t.length, msg⟩ := by
  refine ⟨?_, ?_, ?_, ?_⟩
  · intro p hp
    exact Place.encodes_of hp
  · intro p hp q hq hline hcolumn
    exact Place.eq_of_line_column hp hq hline hcolumn
  · intro p q h hq
    exact Place.lt_of_lt h hq
  · intro pos msg h
    rw [Place.renderNote_eq, Place.renderNote_eq, Place.of_beyond h]

/-- A line feed that stands alone on its line, behind the carriage return of the first line. -/
theorem place_encodes_position_blank :
    2 ≤ 6 ∧ 4 ≤ 6 ∧ 2 < 4 ∧
    (Place.of ['a', 'b', '\r', '\n', '\n', 'c'] 4).Encodes ['a', 'b', '\r', '\n', '\n', 'c'] 4 ∧
    ((Place.of ['a', 'b', '\r', '\n', '\n', 'c'] 2).line <
        (Place.of ['a', 'b', '\r', '\n', '\n', 'c'] 4).line ∨
      (Place.of ['a', 'b', '\r', '\n', '\n', 'c'] 2).line =
          (Place.of ['a', 'b', '\r', '\n', '\n', 'c'] 4).line ∧
        (Place.of ['a', 'b', '\r', '\n', '\n', 'c'] 2).column <
          (Place.of ['a', 'b', '\r', '\n', '\n', 'c'] 4).column) ∧
    ParseError.renderNote ['a', 'b', '\r', '\n', '\n', 'c'] ⟨9, some "late"⟩ =
      ParseError.renderNote ['a', 'b', '\r', '\n', '\n', 'c'] ⟨6, some "late"⟩ := by
  obtain ⟨hencodes, -, horder, hbeyond⟩ :=
    place_encodes_position ['a', 'b', '\r', '\n', '\n', 'c']
  have hmiddle : 4 ≤ 6 := by decide
  have hlater : 2 < 4 := by decide
  exact ⟨by decide, hmiddle, hlater, hencodes 4 hmiddle, horder 2 4 hlater hmiddle,
    hbeyond 9 (some "late") (by decide)⟩

end Backtrack
