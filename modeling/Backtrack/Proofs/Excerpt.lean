import Backtrack.Proofs.Column
import Mathlib.Data.List.TakeWhile

/-!
# Excerpts

Line numbers count line feeds, and the line shown is one in the wide sense. The two agree as long as
every break before the position is a line feed, alone or behind a carriage return. Then there is an
excerpt exactly for a position that is not at a break or at the end. It is a window of 40 characters
on the line of the position, which shows the character of the position. The caret is below that
character up to column 20; beyond, it is one further on.
-/

namespace Backtrack

open Text (isLineBreak lines Stands exists_stands)

namespace Excerpt

variable {l : Text} {k i : Nat}

/-- The window on a line for the character at offset `k`. It begins 19 characters before that one, or
with the line. -/
def window (l : Text) (k : Nat) : Excerpt := ⟨(l.drop (k - 19)).take 40, min k 20⟩

theorem cut_succ (l : Text) (k : Nat) : cut l (k + 1) = .ok (window l k) := by
  unfold cut window
  split
  · have hdrop : k - 19 = 0 := by omega
    have hcount : ¬ (k : Int) + 1 - 1 < -indexLimit := by omega
    have hindent : ((k : Int) + 1 - 1).toNat = min k 20 := by omega
    rw [spaces, if_neg hcount, hdrop, hindent, List.drop_zero, Except.map]
  · have hdrop : ((k : Int) + 1 - 20).toNat = k - 19 := by omega
    have hindent : 20 = min k 20 := by omega
    rw [hdrop, ← hindent]

theorem getElem?_window (hi : i < 40) : (window l k).line[i]? = l[k - 19 + i]? := by
  rw [window, List.getElem?_take_of_lt hi, List.getElem?_drop]

/-- The caret is below the character at offset `k`, or from offset 20 on below the next one. -/
theorem getElem?_indent (l : Text) (k : Nat) :
    (window l k).line[(window l k).indent]? = if k < 20 then l[k]? else l[k + 1]? := by
  have hindent : (window l k).indent = min k 20 := rfl
  rw [hindent, getElem?_window (by omega)]
  split
  · have hsame : k - 19 + min k 20 = k := by omega
    rw [hsame]
  · have hnext : k - 19 + min k 20 = k + 1 := by omega
    rw [hnext]

theorem length_window_le : (window l k).line.length ≤ 40 := List.length_take_le 40 _

/-- The window holds the character at offset `k`. -/
theorem lt_length_window (hk : k < l.length) : min k 19 < (window l k).line.length := by
  rw [window, List.length_take, List.length_drop]
  omega

theorem window_piece : l = l.take (k - 19) ++ (window l k).line ++ (l.drop (k - 19)).drop 40 := by
  rw [window, List.append_assoc, List.take_append_drop, List.take_append_drop]

end Excerpt

/-- The line `l` of a text, from one break to the next: `u` before it and `v` behind it end and begin
with a break, unless they are empty. -/
structure Text.LineBetween (t u l v : Text) : Prop where
  split : t = u ++ l ++ v
  before : ∀ c ∈ u.getLast?, isLineBreak c = true
  unbroken : ∀ c ∈ l, isLineBreak c = false
  behind : ∀ c ∈ v.head?, isLineBreak c = true

namespace Text

variable {t u m w l v : Text} {p : Nat}

theorem LineBetween.getElem?_of_lt (h : t.LineBetween u l v) {k : Nat} (hk : k < l.length) :
    t[u.length + k]? = l[k]? := by
  rw [h.split, List.append_assoc, List.getElem?_append_right (Nat.le_add_right _ _),
    Nat.add_sub_cancel_left, List.getElem?_append_left hk]

/-- What a line holds, the text holds there, and what stands at its end is a break. -/
theorem LineBetween.getElem? (h : t.LineBetween u l v) {k : Nat} (hk : k ≤ l.length) :
    t[u.length + k]?.filter (fun c => !isLineBreak c) = l[k]? := by
  rcases Nat.lt_or_eq_of_le hk with hlt | rfl
  · rw [h.getElem?_of_lt hlt, List.getElem?_eq_getElem hlt, Option.filter_some,
      h.unbroken _ (List.getElem_mem hlt)]
    rfl
  · rw [h.split, List.append_assoc, List.getElem?_append_right (Nat.le_add_right _ _),
      Nat.add_sub_cancel_left, List.getElem?_append_right (Nat.le_refl _), Nat.sub_self,
      ← List.head?_eq_getElem?,
      List.getElem?_eq_none (Nat.le_refl _)]
    cases hv : v.head? with
    | none => rfl
    | some c =>
      rw [Option.filter_some, h.behind c hv]
      rfl

/-- A break between the beginning of the line and the position would be a carriage return whose line
feed stands at the position. -/
theorem Stands.unbroken (h : t.Stands p u m w) (hplain : ∀ i < p, t.BreaksPlainly i)
    (hfeed : t[p]? ≠ some '\n') : ∀ c ∈ m, isLineBreak c = false := by
  intro c hc
  obtain ⟨i, hi, rfl⟩ := List.getElem_of_mem hc
  have hpos := h.pos
  have hitem : t[u.length + i]? = some m[i] := by
    rw [h.split, List.append_assoc, List.getElem?_append_right (Nat.le_add_right _ _),
      Nat.add_sub_cancel_left, List.getElem?_append_left hi, List.getElem?_eq_getElem hi]
  by_contra hbreak
  rcases hplain (u.length + i) (by omega) _ hitem (Bool.of_not_eq_false hbreak) with hlf | ⟨_, hlf⟩
  · exact h.noLineFeed (hlf ▸ hc)
  · rcases Nat.lt_or_eq_of_le (show u.length + i + 1 ≤ p by omega) with hlt | heq
    · exact h.ne_lineFeed (by omega) hlt hlf
    · rw [heq] at hlf
      exact hfeed hlf

/-- The line of a position that is not at a break. -/
theorem Stands.lineBetween (h : t.Stands p u m w) (hplain : ∀ i < p, t.BreaksPlainly i) {c : Char}
    (hc : t[p]? = some c) (hbreak : isLineBreak c = false) :
    t.LineBetween u (m ++ w.takeWhile fun d => !isLineBreak d)
      (w.dropWhile fun d => !isLineBreak d) := by
  refine ⟨?_, ?_, ?_, ?_⟩
  · rw [← List.append_assoc, List.append_assoc _ (w.takeWhile _), List.takeWhile_append_dropWhile]
    exact h.split
  · intro d hd
    rw [h.opens d hd]
    rfl
  · have hfeed : t[p]? ≠ some '\n' := by
      rw [hc]
      rintro heq
      cases heq
      exact absurd hbreak (by decide)
    intro d hd
    rcases List.mem_append.mp hd with hd | hd
    · exact h.unbroken hplain hfeed d hd
    · simpa using List.mem_takeWhile_imp hd
  · intro d hd
    have hhead := List.head?_dropWhile_not (fun e => !isLineBreak e) w
    rw [Option.mem_def.mp hd] at hhead
    simpa using hhead

/-- That line holds the character of the position. -/
theorem Stands.lt_length_line (h : t.Stands p u m w) {c : Char} (hc : t[p]? = some c)
    (hbreak : isLineBreak c = false) :
    m.length < (m ++ w.takeWhile fun d => !isLineBreak d).length := by
  obtain ⟨rest, hw⟩ : ∃ rest, w = c :: rest := by
    rw [← List.head?_eq_some_iff, ← h.drop, List.head?_drop]
    exact hc
  rw [hw, List.takeWhile_cons_of_pos (by simp [hbreak]), List.length_append, List.length_cons]
  omega

end Text

namespace Place

variable {t u m w : Text} {p : Nat}

/-- The excerpt for the character at offset `k` of its line. -/
theorem excerptOf_succ (t : Text) (line k : Nat) :
    excerptOf t line (k + 1) =
      .ok (t.lines[line - 1]?.bind fun l => if k < l.length then some (.window l k) else none) := by
  unfold excerptOf
  cases t.lines[line - 1]? with
  | none => rfl
  | some l =>
    by_cases hk : k < l.length
    · have hcolumn : (k : Int) + 1 ≤ l.length := by omega
      simp [hk, hcolumn, Excerpt.cut_succ, Except.map]
    · have hcolumn : ¬ (k : Int) + 1 ≤ l.length := by omega
      simp [hk, hcolumn]

/-- The excerpt is taken from the first line behind `u`. -/
theorem excerpt_of_stands (h : t.Stands p u m w) (hplain : ∀ i < p, t.BreaksPlainly i) :
    (Place.of t p).excerpt = .ok ((lines (m ++ w)).head?.bind fun l =>
      if m.length < l.length then some (.window l m.length) else none) := by
  have hbreaks : ∀ i < u.length, u.BreaksPlainly i := by
    intro i hi
    have hp : i < p := by
      rw [h.pos]
      exact Nat.lt_add_right _ hi
    have hplain' := hplain i hp
    rw [h.split, List.append_assoc] at hplain'
    exact hplain'.of_append h.opens hi
  have hline : t.lines[u.count '\n' + 1 - 1]? = (lines (m ++ w)).head? := by
    rw [h.split, List.append_assoc, Text.lines_append h.opens, Nat.add_sub_cancel,
      ← Text.length_lines h.opens hbreaks, List.getElem?_append_right (Nat.le_refl _), Nat.sub_self,
      List.head?_eq_getElem?]
  rw [of_stands h]
  show excerptOf t (u.count '\n' + 1) (m.length + 1) = _
  rw [excerptOf_succ, hline]

/-- At a break, or at the end, the line is too short. -/
theorem excerpt_eq_none (hp : p ≤ t.length) (hplain : ∀ i < p, t.BreaksPlainly i)
    (hbreak : ∀ c ∈ t[p]?, isLineBreak c = true) : (Place.of t p).excerpt = .ok none := by
  obtain ⟨u, m, w, h⟩ := exists_stands hp
  have hw : ∀ c ∈ w.head?, isLineBreak c = true := by
    rw [← h.drop, List.head?_drop]
    exact hbreak
  rw [excerpt_of_stands h hplain]
  cases hfirst : (lines (m ++ w)).head? with
  | none => rfl
  | some l =>
    have hshort := Text.length_head?_lines_le hw l hfirst
    rw [Option.bind_some, if_neg (Nat.not_lt.mpr hshort)]

/-- The window on the line of a position that is not at a break. -/
theorem excerpt_eq_window (hplain : ∀ i < p, t.BreaksPlainly i) {c : Char} (hc : t[p]? = some c)
    (hbreak : isLineBreak c = false) :
    ∃ u l v k, t.LineBetween u l v ∧ k < l.length ∧ p = u.length + k ∧
      (Place.of t p).column = k + 1 ∧ (Place.of t p).excerpt = .ok (some (.window l k)) := by
  obtain ⟨hp, _⟩ := List.getElem?_eq_some_iff.mp hc
  obtain ⟨u, m, w, h⟩ := exists_stands (Nat.le_of_lt hp)
  have hline := h.lineBetween hplain hc hbreak
  have hk := h.lt_length_line hc hbreak
  have hne : (m ++ w.takeWhile fun d => !isLineBreak d) ≠ [] :=
    List.ne_nil_of_length_pos (Nat.zero_lt_of_lt hk)
  have hfirst : (lines (m ++ w)).head? = some (m ++ w.takeWhile fun d => !isLineBreak d) := by
    have hsplit : m ++ w = (m ++ w.takeWhile fun d => !isLineBreak d) ++
        w.dropWhile fun d => !isLineBreak d := by
      rw [List.append_assoc, List.takeWhile_append_dropWhile]
    rw [hsplit]
    exact Text.head?_lines hline.unbroken hline.behind (List.append_ne_nil_of_left_ne_nil hne _)
  refine ⟨u, _, _, m.length, hline, hk, h.pos, by rw [of_stands h], ?_⟩
  rw [excerpt_of_stands h hplain, hfirst, Option.bind_some, if_pos hk]

theorem exists_excerpt_iff (hplain : ∀ i < p, t.BreaksPlainly i) :
    (∃ e, (Place.of t p).excerpt = .ok (some e)) ↔ ∃ c, t[p]? = some c ∧ isLineBreak c = false := by
  constructor
  · rintro ⟨e, he⟩
    by_contra hnot
    have hbreak : ∀ c ∈ t[p]?, isLineBreak c = true := by
      intro c hc
      by_contra hfalse
      exact hnot ⟨c, hc, Bool.eq_false_iff.mpr hfalse⟩
    rcases Nat.le_total p t.length with hp | hp
    · rw [excerpt_eq_none hp hplain hbreak] at he
      cases he
    · have hend : ∀ c ∈ t[t.length]?, isLineBreak c = true := by
        intro c hc
        rw [List.getElem?_eq_none (Nat.le_refl _)] at hc
        cases hc
      rw [of_beyond (Int.ofNat_le.mpr hp), excerpt_eq_none (Nat.le_refl _)
        (fun i hi => hplain i (Nat.lt_of_lt_of_le hi hp)) hend] at he
      cases he
  · rintro ⟨c, hc, hbreak⟩
    obtain ⟨u, l, v, k, -, -, -, -, he⟩ := excerpt_eq_window hplain hc hbreak
    exact ⟨_, he⟩

/-- Every excerpt is a window on the line of its position. -/
theorem eq_window_of_excerpt (hplain : ∀ i < p, t.BreaksPlainly i) {e : Excerpt}
    (he : (Place.of t p).excerpt = .ok (some e)) :
    ∃ u l v k, t.LineBetween u l v ∧ k < l.length ∧ p = u.length + k ∧
      (Place.of t p).column = k + 1 ∧ e = .window l k := by
  obtain ⟨c, hc, hbreak⟩ := (exists_excerpt_iff hplain).mp ⟨e, he⟩
  obtain ⟨u, l, v, k, hline, hk, hpos, hcolumn, hcut⟩ := excerpt_eq_window hplain hc hbreak
  rw [he] at hcut
  exact ⟨u, l, v, k, hline, hk, hpos, hcolumn, Option.some.inj (Except.ok.inj hcut)⟩

end Place

/-- The character at `p` is neither a line feed nor the carriage return in front of one. -/
def Text.InLine (t : Text) (p : Nat) : Prop :=
  ∃ c ∈ t[p]?, c ≠ '\n' ∧ ¬ (c = '\r' ∧ t[p + 1]? = some '\n')

theorem Text.inLine_iff {t : Text} {p : Nat} (h : t.BreaksPlainly p) :
    t.InLine p ↔ ∃ c, t[p]? = some c ∧ isLineBreak c = false := by
  constructor
  · rintro ⟨c, hc, hlf, hcrlf⟩
    refine ⟨c, hc, ?_⟩
    by_contra hbreak
    rcases h c hc (Bool.of_not_eq_false hbreak) with hlf' | hcrlf'
    · exact hlf hlf'
    · exact hcrlf hcrlf'
  · rintro ⟨c, hc, hbreak⟩
    refine ⟨c, hc, ?_, ?_⟩
    · rintro rfl
      exact absurd hbreak (by decide)
    · rintro ⟨rfl, _⟩
      exact absurd hbreak (by decide)

/-- A piece of at most 40 characters of the line of position `p`, with the character at `p` at index
`i`. -/
structure Excerpt.Shows (e : Excerpt) (t : Text) (p i : Nat) : Prop where
  length_le : e.line.length ≤ 40
  lt_length : i < e.line.length
  char : e.line[i]? = t[p]?
  piece : ∃ u l v before behind, t.LineBetween u l v ∧ l = before ++ e.line ++ behind ∧
    p = u.length + before.length + i

theorem Excerpt.shows_window {t u l v : Text} (h : t.LineBetween u l v) {k : Nat}
    (hk : k < l.length) : (window l k).Shows t (u.length + k) (min k 19) := by
  have hoffset : k - 19 + min k 19 = k := by omega
  refine ⟨length_window_le, lt_length_window hk, ?_, u, l, v, l.take (k - 19),
    (l.drop (k - 19)).drop 40, h, window_piece, ?_⟩
  · have hi : min k 19 < 40 := by omega
    rw [getElem?_window hi, hoffset, h.getElem?_of_lt hk]
  · rw [List.length_take]
    omega

/-- In a text with plain breaks the notes have an excerpt for just the positions on a line, and it
shows the character of the position: at the index of its column up to column 20, and at index 19
beyond. -/
theorem excerpt_shows_line (t : Text) (ht : ∀ i < t.length, t.BreaksPlainly i) (p : Nat) :
    (∃ shown, (Place.of t p).excerpt = .ok shown ∧
      ∀ msg, ParseError.renderNote t ⟨p, msg⟩ = .ok ((Place.of t p).note shown msg)) ∧
    ((∃ e, (Place.of t p).excerpt = .ok (some e)) ↔ t.InLine p) ∧
    ∀ e, (Place.of t p).excerpt = .ok (some e) → ∃ i : Nat, e.Shows t p i ∧
      (i : Int) = if (Place.of t p).column ≤ 20 then (Place.of t p).column - 1 else 19 := by
  have hplain : ∀ i, t.BreaksPlainly i := by
    intro i
    rcases Nat.lt_or_ge i t.length with hi | hi
    · exact ht i hi
    · intro c hc
      rw [List.getElem?_eq_none hi] at hc
      cases hc
  refine ⟨Place.exists_note t p, ?_, ?_⟩
  · rw [Place.exists_excerpt_iff fun i _ => hplain i, Text.inLine_iff (hplain p)]
  · intro e he
    obtain ⟨u, l, v, k, hline, hk, rfl, hcolumn, rfl⟩ :=
      Place.eq_window_of_excerpt (fun i _ => hplain i) he
    refine ⟨min k 19, Excerpt.shows_window hline hk, ?_⟩
    rw [hcolumn]
    omega

/-- Position 5 is the first one behind a carriage return and line feed. The line feed before it has
no excerpt. -/
theorem excerpt_shows_line_crlf :
    (∀ i < 7, Text.BreaksPlainly ['a', '\n', 'b', '\r', '\n', 'c', 'd'] i) ∧
    ((∃ e, (Place.of ['a', '\n', 'b', '\r', '\n', 'c', 'd'] 4).excerpt = .ok (some e)) ↔
      Text.InLine ['a', '\n', 'b', '\r', '\n', 'c', 'd'] 4) ∧
    (Place.of ['a', '\n', 'b', '\r', '\n', 'c', 'd'] 5).excerpt = .ok (some ⟨['c', 'd'], 0⟩) ∧
    ∃ i : Nat, Excerpt.Shows ⟨['c', 'd'], 0⟩ ['a', '\n', 'b', '\r', '\n', 'c', 'd'] 5 i ∧
      (i : Int) = if (Place.of ['a', '\n', 'b', '\r', '\n', 'c', 'd'] 5).column ≤ 20
        then (Place.of ['a', '\n', 'b', '\r', '\n', 'c', 'd'] 5).column - 1 else 19 := by
  have hplain : ∀ i < 7, Text.BreaksPlainly ['a', '\n', 'b', '\r', '\n', 'c', 'd'] i := by decide
  have he : (Place.of ['a', '\n', 'b', '\r', '\n', 'c', 'd'] 5).excerpt =
    .ok (some ⟨['c', 'd'], 0⟩) := rfl
  have hshows := excerpt_shows_line ['a', '\n', 'b', '\r', '\n', 'c', 'd'] hplain
  exact ⟨hplain, (hshows 4).2.1, he, (hshows 5).2.2 _ he⟩

/-- If all breaks before the position are plain, the caret, which stands behind `e.indent` spaces, is
below the character of the position up to column 20. Beyond, it is below the next character of the
line, or below none. -/
theorem char_above_caret {t : Text} {p : Nat} (hplain : ∀ i < p, t.BreaksPlainly i) {e : Excerpt}
    (he : (Place.of t p).excerpt = .ok (some e)) :
    (∀ msg, ∃ head, ParseError.renderNote t ⟨p, msg⟩ =
      .ok (head ++ ("\n" ++ String.ofList e.line ++ "\n" ++
        String.ofList (List.replicate e.indent ' ') ++ "^"))) ∧
    e.line[e.indent]? =
      (if (Place.of t p).column ≤ 20 then t[p]? else t[p + 1]?.filter fun c => !isLineBreak c) ∧
    (20 < (Place.of t p).column → e.line[e.indent - 1]? = t[p]?) := by
  have hnote : ∀ msg, ∃ head, ParseError.renderNote t ⟨p, msg⟩ =
      .ok (head ++ ("\n" ++ String.ofList e.line ++ "\n" ++
        String.ofList (List.replicate e.indent ' ') ++ "^")) := by
    intro msg
    rw [Place.renderNote_eq, he, Except.map, Place.note]
    exact ⟨_, rfl⟩
  refine ⟨hnote, ?_⟩
  obtain ⟨u, l, v, k, hline, hk, rfl, hcolumn, rfl⟩ := Place.eq_window_of_excerpt hplain he
  rw [hcolumn, Excerpt.getElem?_indent]
  by_cases hcase : k < 20
  · have hle : (k : Int) + 1 ≤ 20 := by omega
    refine ⟨?_, fun hgt => absurd hle (Int.not_le.mpr hgt)⟩
    rw [if_pos hcase, if_pos hle, hline.getElem?_of_lt hk]
  · have hgt : ¬ (k : Int) + 1 ≤ 20 := by omega
    refine ⟨?_, fun _ => ?_⟩
    · rw [if_neg hcase, if_neg hgt, ← hline.getElem? hk, Nat.add_assoc]
    · have hindent : (Excerpt.window l k).indent = min k 20 := rfl
      have hbefore : (Excerpt.window l k).indent - 1 = min k 19 := by omega
      rw [hbefore, (Excerpt.shows_window hline hk).char]

/-- The letter at column 21 is shown, and the caret is below the letter behind it. -/
theorem char_above_caret_far :
    (∀ i < 20, Text.BreaksPlainly "abcdefghijklmnopqrstuvwxyz".toList i) ∧
    ∃ e, (Place.of "abcdefghijklmnopqrstuvwxyz".toList 20).excerpt = .ok (some e) ∧
      e.line[e.indent]? = some 'v' ∧ e.line[e.indent - 1]? = some 'u' := by
  have hplain : ∀ i < 20, Text.BreaksPlainly "abcdefghijklmnopqrstuvwxyz".toList i := by decide
  obtain ⟨e, he⟩ : ∃ e, (Place.of "abcdefghijklmnopqrstuvwxyz".toList 20).excerpt = .ok (some e) :=
    ⟨_, rfl⟩
  obtain ⟨-, hcaret, hbefore⟩ := char_above_caret (p := 20) hplain he
  exact ⟨hplain, e, he, hcaret, hbefore (by decide)⟩

/-- So the caret is not always below the character of the position. Beyond column 20 it is one too
far: behind 20 spaces, below the letter after the one at position 20. Behind a lone carriage return,
which ends a line but is not counted, the excerpt is another line. -/
theorem caret_misses_character :
    (ParseError.renderNote "abcdefghijklmnopqrstuvwxyz".toList ⟨20, none⟩ =
        .ok "At position 20 (line 1, column 21)\nbcdefghijklmnopqrstuvwxyz\n                    ^" ∧
      "bcdefghijklmnopqrstuvwxyz".toList[20]? = some 'v' ∧
      "abcdefghijklmnopqrstuvwxyz".toList[20]? = some 'u') ∧
    ParseError.renderNote "a\rb\ncdef".toList ⟨4, none⟩ =
        .ok "At position 4 (line 2, column 1)\nb\n^" ∧
      "b".toList[0]? = some 'b' ∧ "a\rb\ncdef".toList[4]? = some 'c' := by
  refine ⟨⟨?_, rfl, rfl⟩, ?_, rfl, rfl⟩
  · decide +kernel
  · decide +kernel

end Backtrack
