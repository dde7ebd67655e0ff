import Backtrack.Text.Line
import Mathlib.Data.List.Basic

/-!
# Where lines begin

A line begins at the start of a text and behind every line feed, and the lines of a text are those
before such a place and those behind it. Before it there are as many lines as line feeds, provided
that no line breaks in another way than with a line feed, alone or behind a carriage return.
-/

namespace Backtrack.Text

section Turns

variable {c : Char} {rest : Text}

theorem lines_of_break (hc : isLineBreak c = true) (hcr : c = '\r' → rest.head? ≠ some '\n') :
    lines (c :: rest) = [] :: lines rest := by
  rw [lines, if_pos hc]
  rintro tail rfl rfl
  exact hcr rfl rfl

theorem lines_of_not_break (hc : isLineBreak c = false) :
    lines (c :: rest) = extendFirst c (lines rest) := by
  rw [lines, if_neg (by simp [hc])]
  rintro tail rfl rfl
  simp [isLineBreak] at hc

/-- A break at the start makes the first line empty. -/
theorem head?_lines_of_break (hc : isLineBreak c = true) : (lines (c :: rest)).head? = some [] := by
  by_cases hcr : c = '\r' ∧ rest.head? = some '\n'
  · obtain ⟨rfl, hhead⟩ := hcr
    obtain ⟨tail, rfl⟩ := List.head?_eq_some_iff.mp hhead
    rfl
  · rw [lines_of_break hc fun h hhead => hcr ⟨h, hhead⟩]
    rfl

/-- Induction with one case for each turn of the division. -/
@[elab_as_elim]
theorem induct_lines {motive : Text → Prop} (nil : motive [])
    (crlf : ∀ rest, motive rest → motive ('\r' :: '\n' :: rest))
    (lineBreak : ∀ c rest, isLineBreak c = true → (c = '\r' → rest.head? ≠ some '\n') →
      motive rest → motive (c :: rest))
    (char : ∀ c rest, isLineBreak c = false → motive rest → motive (c :: rest)) (t : Text) :
    motive t := by
  induction t using lines.induct with
  | case1 => exact nil
  | case2 rest ih => exact crlf rest ih
  | case3 c rest hcrlf hc ih =>
    refine lineBreak c rest hc ?_ ih
    rintro rfl hhead
    obtain ⟨tail, rfl⟩ := List.head?_eq_some_iff.mp hhead
    exact hcrlf tail rfl rfl
  | case4 c rest _ hc ih => exact char c rest (Bool.eq_false_iff.mpr hc) ih

theorem extendFirst_append {ls : List Text} (h : ls ≠ []) (ms : List Text) :
    extendFirst c (ls ++ ms) = extendFirst c ls ++ ms := by
  cases ls with
  | nil => exact absurd rfl h
  | cons l ls => rfl

theorem length_extendFirst {ls : List Text} (h : ls ≠ []) :
    (extendFirst c ls).length = ls.length := by
  cases ls with
  | nil => exact absurd rfl h
  | cons l ls => rfl

theorem head?_extendFirst (ls : List Text) :
    (extendFirst c ls).head? = some (c :: ls.head?.getD []) := by
  cases ls <;> rfl

theorem lines_ne_nil {t : Text} (ht : t ≠ []) : lines t ≠ [] := by
  induction t using induct_lines with
  | nil => exact absurd rfl ht
  | crlf rest _ => exact List.cons_ne_nil _ _
  | lineBreak c rest hc hcr _ =>
    rw [lines_of_break hc hcr]
    exact List.cons_ne_nil _ _
  | char c rest hc _ =>
    rw [lines_of_not_break hc]
    cases lines rest <;> exact List.cons_ne_nil _ _

end Turns

/-- Up to the first break everything is the first line. -/
theorem head?_lines {l v : Text} (hl : ∀ c ∈ l, isLineBreak c = false)
    (hv : ∀ c ∈ v.head?, isLineBreak c = true) (hne : l ++ v ≠ []) :
    (lines (l ++ v)).head? = some l := by
  induction l with
  | nil =>
    cases v with
    | nil => exact absurd rfl hne
    | cons c v => exact head?_lines_of_break (hv c rfl)
  | cons c l ih =>
    obtain ⟨hc, hl⟩ := List.forall_mem_cons.mp hl
    rw [List.cons_append, lines_of_not_break hc, head?_extendFirst]
    by_cases hrest : l ++ v = []
    · rw [hrest, (List.append_eq_nil_iff.mp hrest).1]
      rfl
    · rw [ih hl hrest]
      rfl

/-- The first line goes no further than any break, or the end. -/
theorem length_head?_lines_le {m w : Text} (hw : ∀ c ∈ w.head?, isLineBreak c = true) :
    ∀ l ∈ (lines (m ++ w)).head?, l.length ≤ m.length := by
  induction m with
  | nil =>
    intro l hl
    cases w with
    | nil => cases hl
    | cons c w =>
      rw [List.nil_append, head?_lines_of_break (hw c rfl)] at hl
      cases hl
      exact Nat.le_refl 0
  | cons c m ih =>
    intro l hl
    cases hc : isLineBreak c with
    | true =>
      rw [List.cons_append, head?_lines_of_break hc] at hl
      cases hl
      exact Nat.zero_le _
    | false =>
      rw [List.cons_append, lines_of_not_break hc, head?_extendFirst] at hl
      cases hl
      cases hfirst : (lines (m ++ w)).head? with
      | none => exact Nat.succ_le_succ (Nat.zero_le _)
      | some first => exact Nat.succ_le_succ (ih first hfirst)

/-- A line begins behind `u`: there is nothing before it, or a line feed. -/
def OpensLine (u : Text) : Prop := ∀ c ∈ u.getLast?, c = '\n'

theorem OpensLine.tail {c : Char} {u : Text} (h : OpensLine (c :: u)) : OpensLine u := by
  intro d hd
  refine h d ?_
  rw [Option.mem_def] at hd ⊢
  rw [List.getLast?_cons, hd]
  rfl

theorem OpensLine.tail_ne_nil {c : Char} {u : Text} (h : OpensLine (c :: u))
    (hc : isLineBreak c = false) : u ≠ [] := by
  rintro rfl
  rw [show c = '\n' from h c rfl] at hc
  exact absurd hc (by decide)

/-- Every text falls into what comes before its last line, as line feeds divide it, and that line. -/
theorem exists_last_line (t : Text) : ∃ u m, t = u ++ m ∧ OpensLine u ∧ '\n' ∉ m := by
  induction t with
  | nil => exact ⟨[], [], rfl, by simp [OpensLine], by simp⟩
  | cons c t ih =>
    obtain ⟨u, m, rfl, hu, hm⟩ := ih
    by_cases hfirst : u = [] ∧ c ≠ '\n'
    · obtain ⟨rfl, hc⟩ := hfirst
      refine ⟨[], c :: m, rfl, hu, ?_⟩
      simp [hm, hc.symm]
    · refine ⟨c :: u, m, rfl, ?_, hm⟩
      intro d hd
      rw [Option.mem_def, List.getLast?_cons] at hd
      cases hlast : u.getLast? with
      | none =>
        have hnil := List.getLast?_eq_none_iff.mp hlast
        have hc : c = '\n' := by
          by_contra hne
          exact hfirst ⟨hnil, hne⟩
        rw [hlast] at hd
        cases hd
        exact hc
      | some e =>
        rw [hlast] at hd
        cases hd
        exact hu e hlast

/-- A line that begins behind `u` is not joined to the last one of `u`. -/
theorem lines_append {u : Text} (hu : OpensLine u) (w : Text) :
    lines (u ++ w) = lines u ++ lines w := by
  induction u using induct_lines with
  | nil => rfl
  | crlf rest ih =>
    rw [lines, List.cons_append, List.cons_append, lines, ih hu.tail.tail]
    rfl
  | lineBreak c rest hc hcr ih =>
    have hcr' : c = '\r' → (rest ++ w).head? ≠ some '\n' := by
      intro h
      cases rest with
      | nil => exact absurd (h.symm.trans (hu c rfl)) (by decide)
      | cons d rest => exact hcr h
    rw [lines_of_break hc hcr, List.cons_append, lines_of_break hc hcr', ih hu.tail]
    rfl
  | char c rest hc ih =>
    have hrest : lines rest ≠ [] := lines_ne_nil (hu.tail_ne_nil hc)
    rw [lines_of_not_break hc, List.cons_append, lines_of_not_break hc, ih hu.tail,
      extendFirst_append hrest]

/-- There are at least as many lines as line feeds, and one more if any text stands behind them. -/
theorem count_le_length_lines (t : Text) : t.count '\n' ≤ (lines t).length := by
  induction t using induct_lines with
  | nil => exact Nat.le_refl 0
  | crlf rest ih =>
    rw [lines, List.length_cons, List.count_cons_of_ne (by decide), List.count_cons_self]
    exact Nat.succ_le_succ ih
  | lineBreak c rest hc hcr ih =>
    rw [lines_of_break hc hcr, List.length_cons, List.count_cons]
    split <;> omega
  | char c rest hc ih =>
    have hlf : c ≠ '\n' := by
      rintro rfl
      exact absurd hc (by decide)
    have hlength : (lines rest).length ≤ (extendFirst c (lines rest)).length := by
      cases lines rest <;> simp [extendFirst]
    rw [lines_of_not_break hc, List.count_cons_of_ne hlf]
    exact Nat.le_trans ih hlength

theorem count_lt_length_lines (u : Text) {w : Text} (hw : w ≠ []) :
    u.count '\n' < (lines (u ++ w)).length := by
  obtain ⟨v, m, rfl, hv, hm⟩ := exists_last_line u
  have hrest : lines (m ++ w) ≠ [] := lines_ne_nil (List.append_ne_nil_of_right_ne_nil m hw)
  have hpos := List.length_pos_iff.mpr hrest
  have hcount := count_le_length_lines v
  rw [List.append_assoc, lines_append hv, List.length_append, List.count_append,
    List.count_eq_zero.mpr hm]
  omega

/-- If a line breaks at `i`, it does so with a line feed, or with the two characters carriage return
and line feed. -/
def BreaksPlainly (t : Text) (i : Nat) : Prop :=
  ∀ c ∈ t[i]?, isLineBreak c = true → c = '\n' ∨ c = '\r' ∧ t[i + 1]? = some '\n'

instance (t : Text) (i : Nat) : Decidable (t.BreaksPlainly i) :=
  Option.decidableForallMem t[i]?

theorem BreaksPlainly.of_append {u w : Text} (hu : OpensLine u) {i : Nat} (hi : i < u.length)
    (h : BreaksPlainly (u ++ w) i) : BreaksPlainly u i := by
  intro c hc hbreak
  have hc' : (u ++ w)[i]? = some c := by rwa [List.getElem?_append_left hi]
  by_cases hlast : i + 1 < u.length
  · have hnext : (u ++ w)[i + 1]? = u[i + 1]? := List.getElem?_append_left hlast
    rw [← hnext]
    exact h c hc' hbreak
  · left
    refine hu c ?_
    rw [Option.mem_def, List.getLast?_eq_getElem?, show u.length - 1 = i by omega]
    exact hc

/-- Before a beginning of a line there are as many lines as line feeds. -/
theorem length_lines {u : Text} (hu : OpensLine u) (h : ∀ i < u.length, u.BreaksPlainly i) :
    (lines u).length = u.count '\n' := by
  have hnext : ∀ {c : Char} {rest : Text}, (∀ i < (c :: rest).length, BreaksPlainly (c :: rest) i) →
      ∀ i < rest.length, BreaksPlainly rest i :=
    fun h i hi => h (i + 1) (Nat.succ_lt_succ hi)
  induction u using induct_lines with
  | nil => rfl
  | crlf rest ih =>
    rw [lines, List.length_cons, ih hu.tail.tail (hnext (hnext h)),
      List.count_cons_of_ne (by decide), List.count_cons_self]
  | lineBreak c rest hc hcr ih =>
    have hlf : c = '\n' := by
      rcases h 0 (Nat.succ_pos _) c rfl hc with hlf | ⟨hr, hbehind⟩
      · exact hlf
      · rw [List.getElem?_cons_succ, ← List.head?_eq_getElem?] at hbehind
        exact absurd hbehind (hcr hr)
    rw [lines_of_break hc hcr, List.length_cons, ih hu.tail (hnext h), hlf, List.count_cons_self]
  | char c rest hc ih =>
    have hlf : c ≠ '\n' := by
      rintro rfl
      exact absurd hc (by decide)
    have hrest : lines rest ≠ [] := lines_ne_nil (hu.tail_ne_nil hc)
    rw [lines_of_not_break hc, length_extendFirst hrest, ih hu.tail (hnext h),
      List.count_cons_of_ne hlf]

end Backtrack.Text
