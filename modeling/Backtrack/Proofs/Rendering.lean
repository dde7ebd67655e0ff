import Backtrack.ParseError
import Backtrack.Proofs.Lines
import Backtrack.Proofs.Spelling

/-!
# What can be rendered

The caret below an excerpt stands behind as many spaces as its column says, and a number far below
zero is no count of spaces. So no note can show a position that lies so far before a text, unless the
text is empty and there is no line to show either. This is the only fault of rendering: an error can be
formed exactly if none of its notes is on such a position, and then it has a note for each.
-/

namespace Backtrack

namespace Excerpt

variable {l : Text} {column : Int}

theorem cut_eq_error {fault : Fault} :
    cut l column = .error fault ↔ column ≤ -indexLimit ∧ fault = .noCount := by
  unfold cut spaces
  split
  · split
    · next h => simp [Except.map, eq_comm, show column ≤ -indexLimit by omega]
    · next h => simp [Except.map, show ¬ column ≤ -indexLimit by omega]
  · next h => simp [show ¬ column ≤ -indexLimit by omega]

end Excerpt

namespace Place

variable {t : Text} {pos : Int}

theorem sinceLineFeed_le_length (t : Text) : sinceLineFeed t ≤ t.length := by
  have hle := (List.takeWhile_prefix (l := t.reverse) (· != '\n')).length_le
  rwa [List.length_reverse] at hle

/-- A column counts from the last line feed of what stands before the position. -/
theorem exists_before (t : Text) (pos : Int) : ∃ before w : Text, t = before ++ w ∧
    before.length = min (if pos < 0 then t.length + pos else pos).toNat t.length ∧
    (Place.of t pos).line = before.count '\n' + 1 ∧
    (Place.of t pos).column =
      min pos t.length - (before.length - sinceLineFeed before - 1) := by
  refine ⟨t.upTo (min pos t.length), _, (List.take_append_drop _ _).symm, ?_, rfl, rfl⟩
  rw [Text.upTo, List.length_take]
  omega

theorem column_pos (t : Text) (p : Nat) : 1 ≤ (Place.of t p).column := by
  obtain ⟨before, w, -, hlength, -, hcolumn⟩ := exists_before t p
  omega

/-- Where the column is not positive there is a line to show, unless the text is empty. -/
theorem line_le_length_lines (ht : t ≠ []) (h : (Place.of t pos).column ≤ 0) :
    (Place.of t pos).line ≤ t.lines.length := by
  obtain ⟨before, w, rfl, hlength, hline, hcolumn⟩ := exists_before t pos
  have hw : w ≠ [] := by
    rintro rfl
    have hne := List.length_pos_iff.mpr ht
    simp only [List.append_nil] at *
    omega
  rw [hline]
  exact Text.count_lt_length_lines before hw

/-- The position lies so far before the text that the line shown for it has no place for a caret. -/
def IsFar (t : Text) (pos : Int) : Prop := t ≠ [] ∧ (Place.of t pos).column ≤ -indexLimit

/-- In a text of which every character has an index these are the positions that are none. -/
theorem isFar_iff (h : t.length ≤ indexLimit) : IsFar t pos ↔ t ≠ [] ∧ pos < -indexLimit := by
  obtain ⟨before, w, -, hlength, -, hcolumn⟩ := exists_before t pos
  have hsince := sinceLineFeed_le_length before
  refine and_congr_right fun _ => ?_
  rw [hcolumn]
  omega

theorem not_isFar_ofNat (t : Text) (p : Nat) : ¬ IsFar t p := by
  rintro ⟨-, hcolumn⟩
  have hpos := column_pos t p
  omega

/-- An excerpt is a fault only if it is one of a line that is shown. -/
theorem excerptOf_eq_error {line : Nat} {column : Int} {fault : Fault} :
    excerptOf t line column = .error fault ↔
      line - 1 < t.lines.length ∧ column ≤ -indexLimit ∧ fault = .noCount := by
  unfold excerptOf
  split
  · next l hl =>
    obtain ⟨hline, -⟩ := List.getElem?_eq_some_iff.mp hl
    rw [← Excerpt.cut_eq_error (l := l)]
    split
    · cases Excerpt.cut l column <;> simp [Except.map, hline]
    · next hlong =>
      have hcut : ¬ Excerpt.cut l column = .error fault := by
        rw [Excerpt.cut_eq_error]
        omega
      simp [hcut]
  · next hnone =>
    have hline := List.getElem?_eq_none_iff.mp hnone
    simp [Nat.not_lt.mpr hline]

theorem excerpt_eq_error {fault : Fault} :
    (Place.of t pos).excerpt = .error fault ↔ IsFar t pos ∧ fault = .noCount := by
  have hexcerpt : (Place.of t pos).excerpt =
      excerptOf t (Place.of t pos).line (Place.of t pos).column := rfl
  rw [hexcerpt, excerptOf_eq_error, IsFar]
  constructor
  · rintro ⟨hline, hcolumn, rfl⟩
    refine ⟨⟨?_, hcolumn⟩, rfl⟩
    rintro rfl
    cases hline
  · rintro ⟨⟨ht, hcolumn⟩, rfl⟩
    have hline := line_le_length_lines ht (show (Place.of t pos).column ≤ 0 by omega)
    have hpos : 0 < (Place.of t pos).line := Nat.succ_pos _
    exact ⟨by omega, hcolumn, rfl⟩

theorem exists_shown (h : ¬ IsFar t pos) : ∃ shown, (Place.of t pos).excerpt = .ok shown := by
  cases hexcerpt : (Place.of t pos).excerpt with
  | ok shown => exact ⟨shown, rfl⟩
  | error fault => exact absurd (excerpt_eq_error.mp hexcerpt).1 h

/-- What a note on a place consists of: a message, if there is one, then position, line and column,
and below them the excerpt, if one is shown, and a caret behind as many spaces as it is indented. -/
def note (place : Place) (shown : Option Excerpt) (msg : Option String) : String :=
  msg.elim "" (· ++ "\n") ++
    s!"At position {place.pos} (line {place.line}, column {place.column})" ++
    shown.elim "" fun e =>
      "\n" ++ String.ofList e.line ++ "\n" ++ String.ofList (List.replicate e.indent ' ') ++ "^"

theorem renderNote_eq (t : Text) (pos : Int) (msg : Option String) :
    ParseError.renderNote t ⟨pos, msg⟩ =
      (Place.of t pos).excerpt.map fun shown => (Place.of t pos).note shown msg := by
  have hdisplay : (Place.of t pos).display =
      (Place.of t pos).excerpt.map fun shown => (Place.of t pos).note shown none := by
    unfold display
    cases (Place.of t pos).excerpt with
    | error fault => rfl
    | ok shown =>
      cases shown with
      | none => simp [note, Except.map, bind, Except.bind, pure, Except.pure]
      | some e =>
        have hcaret : e.display = String.ofList e.line ++ "\n" ++
            String.ofList (List.replicate e.indent ' ') ++ "^" := by
          rw [Excerpt.display, ← String.toList_inj]
          simp
        simp [note, Except.map, bind, Except.bind, pure, Except.pure, hcaret, String.append_assoc]
  unfold ParseError.renderNote
  rw [hdisplay]
  cases (Place.of t pos).excerpt with
  | error fault => rfl
  | ok shown =>
    cases msg with
    | none => rfl
    | some msg =>
      simp [note, Except.map, bind, Except.bind, pure, Except.pure, String.append_assoc]

/-- Every note on a position within the text or behind it is rendered. -/
theorem exists_note (t : Text) (p : Nat) : ∃ shown, (Place.of t p).excerpt = .ok shown ∧
    ∀ msg, ParseError.renderNote t ⟨p, msg⟩ = .ok ((Place.of t p).note shown msg) := by
  obtain ⟨shown, hshown⟩ := exists_shown (not_isFar_ofNat t p)
  refine ⟨shown, hshown, ?_⟩
  intro msg
  rw [renderNote_eq, hshown, Except.map]

end Place

open Place (IsFar)

/-- The notes are rendered, one by one. -/
def ParseError.Renders (t : Text) (ns : List Note) (shown : List String) : Prop :=
  List.Forall₂ (fun n s => renderNote t n = .ok s) ns shown

namespace ParseError

variable {t : Text} {n : Note} {ns : List Note}

theorem renderNote_of_near (h : ¬ IsFar t n.pos) : ∃ s, renderNote t n = .ok s := by
  obtain ⟨shown, hshown⟩ := Place.exists_shown h
  exact ⟨_, by rw [Place.renderNote_eq, hshown, Except.map]⟩

theorem renderNote_of_far (h : IsFar t n.pos) : renderNote t n = .error .noCount := by
  rw [Place.renderNote_eq, Place.excerpt_eq_error.mpr ⟨h, rfl⟩, Except.map]

theorem exists_renders (h : ∀ n ∈ ns, ¬ IsFar t n.pos) : ∃ shown, Renders t ns shown := by
  induction ns with
  | nil => exact ⟨[], .nil⟩
  | cons n ns ih =>
    obtain ⟨hn, hns⟩ := List.forall_mem_cons.mp h
    obtain ⟨s, hs⟩ := renderNote_of_near hn
    obtain ⟨shown, hshown⟩ := ih hns
    exact ⟨s :: shown, .cons hs hshown⟩

theorem mapM_renderNote_of_far (h : ∃ n ∈ ns, IsFar t n.pos) :
    ns.mapM (renderNote t) = .error .noCount := by
  induction ns with
  | nil => simp at h
  | cons n ns ih =>
    obtain ⟨m, hm, hfar⟩ := h
    rw [List.mapM_cons]
    by_cases hn : IsFar t n.pos
    · rw [renderNote_of_far hn]
      rfl
    · obtain ⟨s, hs⟩ := renderNote_of_near hn
      rcases List.mem_cons.mp hm with rfl | hm
      · exact absurd hfar hn
      · rw [hs, ih ⟨m, hm, hfar⟩]
        rfl

/-- What is appended to an error comes last, in order. -/
theorem Renders.foldlM_appendNote {e : ParseError} {shown : List String}
    (h : Renders e.text ns shown) :
    ns.foldlM appendNote e = .ok { e with notes := e.notes ++ shown } := by
  rw [ParseError.foldlM_appendNote, mapM_eq_ok.mpr h]
  rfl

end ParseError

namespace Failure

variable {f : Failure} {src : Sequence}

theorem toError_of_renders {shown : List String}
    (h : ParseError.Renders src.flatten f.reported shown) :
    f.toError src = .ok { text := src.flatten, pos := f.pos, msg := f.message, notes := shown } := by
  rw [toError_eq, mapM_eq_ok.mpr h]
  rfl

theorem exists_toError (h : ∀ n ∈ f.reported, ¬ IsFar src.flatten n.pos) :
    ∃ e, f.toError src = .ok e := by
  obtain ⟨shown, hshown⟩ := ParseError.exists_renders h
  exact ⟨_, toError_of_renders hshown⟩

theorem toError_of_far (h : ∃ n ∈ f.reported, IsFar src.flatten n.pos) :
    f.toError src = .error .noCount := by
  rw [toError_eq, ParseError.mapM_renderNote_of_far h]
  rfl

end Failure

end Backtrack
