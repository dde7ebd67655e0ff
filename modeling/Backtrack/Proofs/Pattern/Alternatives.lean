import Backtrack.Pattern.Reader
import Mathlib.Data.List.Forall2

/-!
# Alternatives of a written pattern

A bar between two written patterns divides the whole: its signs are those of the first, the bar, and
those of the second, because no sign of a complete pattern reaches over a bar. So the alternatives of
the whole are those of the first and then those of the second. This is about what is read, and not
about what the alternatives accept once they are joined.
-/

namespace Backtrack

/-- A traversal of a list that gives results gives one for each member. -/
theorem mapM_eq_some {α β : Type} {f : α → Option β} {xs : List α} {ys : List β} :
    xs.mapM f = some ys ↔ List.Forall₂ (fun x y => f x = some y) xs ys := by
  induction xs generalizing ys with
  | nil => simp [eq_comm]
  | cons x xs ih =>
    rw [List.mapM_cons, List.forall₂_cons_left_iff]
    simp only [Option.bind_eq_bind, Option.bind_eq_some_iff, ih]
    constructor
    · rintro ⟨y, hy, rest, hrest, h⟩
      cases h
      exact ⟨y, rest, hy, hrest, rfl⟩
    · rintro ⟨y, rest, hy, hrest, rfl⟩
      exact ⟨y, hy, rest, hrest, rfl⟩

/-- The results of a traversal are those of the members. -/
theorem mem_mapM {α β : Type} {f : α → Option β} {xs : List α} {ys : List β}
    (h : xs.mapM f = some ys) {y : β} : y ∈ ys ↔ ∃ x ∈ xs, f x = some y := by
  have hall := mapM_eq_some.mp h
  clear h
  induction hall with
  | nil => simp
  | cons hx _ ih => simp [hx, ih, eq_comm]

/-- A traversal gives results if every member does. -/
theorem isSome_mapM {α β : Type} {f : α → Option β} {xs : List α} :
    (xs.mapM f).isSome = true ↔ ∀ x ∈ xs, (f x).isSome = true := by
  induction xs with
  | nil => simp
  | cons x xs ih =>
    rw [List.mapM_cons, List.forall_mem_cons, ← ih]
    cases f x with
    | none => simp
    | some y => cases xs.mapM f <;> simp

namespace Pattern

namespace Sign

theorem dropWhile_digits_bar (t u : Text) :
    (t ++ '|' :: u).dropWhile Char.isDigit = t.dropWhile Char.isDigit ++ '|' :: u := by
  have hbar : Char.isDigit '|' = false := by decide
  induction t with
  | nil => rw [List.nil_append, List.dropWhile_cons, hbar]; rfl
  | cons c t ih =>
    rw [List.cons_append, List.dropWhile_cons, List.dropWhile_cons, ih]
    split <;> rfl

theorem head?_dropWhile_bar (t u : Text) :
    (((t ++ '|' :: u).dropWhile Char.isDigit).head? == some '}') =
      ((t.dropWhile Char.isDigit).head? == some '}') := by
  rw [dropWhile_digits_bar]
  cases t.dropWhile Char.isDigit with
  | nil => rfl
  | cons c rest => rfl

/-- A repetition is closed before a bar or not at all. -/
theorem opensRepetition_bar (t u : Text) :
    opensRepetition (t ++ '|' :: u) = opensRepetition t := by
  unfold opensRepetition
  rw [dropWhile_digits_bar]
  cases h : t.dropWhile Char.isDigit with
  | nil => simp
  | cons c rest =>
    have hhead : (t ++ '|' :: u).head? = t.head? := by
      cases t with
      | nil => cases h
      | cons d t => rfl
    rw [List.cons_append, hhead]
    by_cases hbrace : c = '}'
    · subst hbrace
      rfl
    by_cases hcomma : c = ','
    · subst hcomma
      exact head?_dropWhile_bar rest u
    · simp [hbrace, hcomma]

theorem takeWhile_octal_bar (n : Nat) (t u : Text) :
    ((t ++ '|' :: u).take n).takeWhile isOctal = (t.take n).takeWhile isOctal := by
  have hbar : isOctal '|' = false := by decide
  induction t generalizing n with
  | nil => cases n <;> simp [hbar]
  | cons c t ih =>
    cases n with
    | zero => rfl
    | succ n => rw [List.cons_append, List.take_succ_cons, List.take_succ_cons, List.takeWhile_cons,
        List.takeWhile_cons, ih]

theorem ofOctal_bar (t u : Text) : ofOctal (t ++ '|' :: u) = ofOctal t := by
  rw [ofOctal, takeWhile_octal_bar, ofOctal]

theorem taken_le_of_ofOctal {t : Text} {sign : Sign} {taken : Nat}
    (h : ofOctal t = some (sign, taken)) : taken ≤ t.length := by
  have hlength : ((t.take 3).takeWhile isOctal).length ≤ t.length :=
    Nat.le_trans (List.takeWhile_sublist _).length_le (List.length_take_le' 3 t)
  simp only [ofOctal] at h
  split at h
  · cases h
  · split at h
    · cases h
      exact hlength
    · cases h
      exact hlength

theorem ofHex_append {width : Nat} {t : Text} {sign : Sign} (h : ofHex width t = some sign)
    (u : Text) : ofHex width (t ++ u) = some sign ∧ width ≤ t.length := by
  obtain ⟨digits, hdigits, hsign⟩ := Option.bind_eq_some_iff.mp h
  have hlength := (mapM_eq_some.mp hdigits).length_eq
  have hwidth : width ≤ t.length := by
    dsimp only at hsign
    split at hsign
    · next hcond =>
      rw [List.length_take, hcond.1] at hlength
      omega
    · cases hsign
  refine ⟨?_, hwidth⟩
  rw [ofHex, List.take_append_of_le_length hwidth]
  exact h

theorem escape_bar {t : Text} {sign : Sign} {taken : Nat} (h : escape t = some (sign, taken))
    (u : Text) : escape (t ++ '|' :: u) = some (sign, taken) ∧ taken ≤ t.length := by
  -- the three escapes that write a code point in hexadecimal
  have hhex : ∀ (width : Nat) (rest : Text),
      (ofHex width rest).map (·, width + 1) = some (sign, taken) →
      (ofHex width (rest ++ '|' :: u)).map (·, width + 1) = some (sign, taken) ∧
        taken ≤ rest.length + 1 := by
    intro width rest h
    obtain ⟨hex, hofHex, heq⟩ := Option.map_eq_some_iff.mp h
    obtain ⟨happend, hwidth⟩ := ofHex_append hofHex ('|' :: u)
    cases heq
    exact ⟨by rw [happend]; rfl, by omega⟩
  unfold escape at h
  split at h
  · cases h
  · exact hhex 2 _ h
  · exact hhex 4 _ h
  · exact hhex 8 _ h
  · next c rest hx hu hU =>
    have hcons : escape (c :: rest ++ '|' :: u) =
        if isOctal c then ofOctal (c :: rest ++ '|' :: u) else (ofEscape c).map (·, 1) := by
      rw [List.cons_append, escape]
      · exact hx
      · exact hu
      · exact hU
    rw [hcons]
    split at h
    · next hoctal =>
      rw [if_pos hoctal, ofOctal_bar]
      exact ⟨h, taken_le_of_ofOctal h⟩
    · next hoctal =>
      rw [if_neg hoctal]
      refine ⟨h, ?_⟩
      obtain ⟨_, _, heq⟩ := Option.map_eq_some_iff.mp h
      cases heq
      exact Nat.le_add_left 1 rest.length

theorem first_bar {c : Char} {rest : Text} {sign : Sign} {taken : Nat}
    (h : first c rest = some (sign, taken)) (u : Text) :
    first c (rest ++ '|' :: u) = some (sign, taken) ∧ taken ≤ rest.length := by
  unfold first at h ⊢
  rw [opensRepetition_bar]
  by_cases hc : c = '\\'
  · rw [if_pos hc] at h ⊢
    exact escape_bar h u
  · rw [if_neg hc] at h ⊢
    refine ⟨h, ?_⟩
    split at h
    · cases h
      exact Nat.zero_le _
    · cases h
      exact Nat.zero_le _

theorem signsAfter_bar {t : Text} {taken : Nat} {signs : List Sign} (htaken : taken ≤ t.length)
    (h : signsAfter taken t = some signs) (u : Text) :
    signsAfter taken (t ++ '|' :: u) = (ofText u).map fun rest => signs ++ .bare '|' :: rest := by
  induction t generalizing taken signs with
  | nil =>
    cases Nat.le_zero.mp htaken
    cases h
    rfl
  | cons c t ih =>
    cases taken with
    | succ taken => exact ih (Nat.le_of_succ_le_succ htaken) h
    | zero =>
      cases hfirst : first c t with
      | none => simp [signsAfter, hfirst] at h
      | some x =>
        obtain ⟨sign, next⟩ := x
        obtain ⟨hbar, hnext⟩ := first_bar hfirst u
        simp only [signsAfter, hfirst] at h
        obtain ⟨rest, hrest, rfl⟩ := Option.map_eq_some_iff.mp h
        simp only [List.cons_append, signsAfter, hbar, ih hnext hrest, Option.map_map]
        rfl

/-- The signs of two texts with a bar between them. -/
theorem ofText_bar {t : Text} {signs : List Sign} (h : ofText t = some signs) (u : Text) :
    ofText (t ++ '|' :: u) = (ofText u).map fun rest => signs ++ .bare '|' :: rest :=
  signsAfter_bar (Nat.zero_le _) h u

end Sign

namespace ReadState

/-- The state with further alternatives before those that it has. -/
def behind (s : ReadState) (bs : List Branch) : ReadState := { s with branches := bs ++ s.branches }

variable (s : ReadState) (bs : List Branch)

theorem addPiece_behind (p : Piece) : (s.behind bs).addPiece p = (s.addPiece p).behind bs := rfl

theorem withMode_behind (m : Mode) : (s.behind bs).withMode m = (s.withMode m).behind bs := rfl

theorem closeBranch_behind : (s.behind bs).closeBranch = s.closeBranch.behind bs := by
  simp only [closeBranch, behind, List.append_assoc]

theorem readOutside_behind (sign : Sign) :
    (s.behind bs).readOutside sign = (s.readOutside sign).map (·.behind bs) := by
  cases sign with
  | bare c =>
    simp only [readOutside, closeBranch_behind, withMode_behind, addPiece_behind]
    split
    · rfl
    · split
      · rfl
      · split
        · rfl
        · split <;> rfl
  | escaped code => rfl
  | member code => rfl
  | category k negated => rfl

theorem readMember_behind (negated : Bool) (items : List Item) (sign : Sign) :
    (s.behind bs).readMember negated items sign = (s.readMember negated items sign).behind bs := by
  unfold readMember
  split <;> rfl

/-- Alternatives that are complete have no influence on what is read. -/
theorem read_behind (sign : Sign) : (s.behind bs).read sign = (s.read sign).map (·.behind bs) := by
  have hmode : (s.behind bs).mode = s.mode := rfl
  unfold read
  rw [hmode]
  simp only [readOutside_behind, readMember_behind, withMode_behind, addPiece_behind]
  split
  · rfl
  · split <;> rfl
  · rfl
  · split <;> rfl
  · split
    · rfl
    · rw [Option.map_map]
      rfl

theorem foldlM_read_behind (signs : List Sign) :
    signs.foldlM read (s.behind bs) = (signs.foldlM read s).map (·.behind bs) := by
  induction signs generalizing s with
  | nil => rfl
  | cons sign signs ih =>
    rw [List.foldlM_cons, List.foldlM_cons, read_behind]
    cases s.read sign with
    | none => rfl
    | some next => exact ih next

/-- The alternatives that have been read, if no set is left open. -/
def alternatives? (s : ReadState) : Option (List Branch) :=
  match s.mode with
  | .outside => some (s.branches ++ [s.branch])
  | _ => none

end ReadState

/-- The alternatives that a text writes, before they are joined. -/
def alternatives? (t : Text) : Option (List Branch) := do
  let signs ← Sign.ofText t
  let last ← signs.foldlM ReadState.read ReadState.start
  last.alternatives?

/-- A written pattern is its alternatives joined. -/
theorem parse?_eq_map (t : Text) : parse? t = (alternatives? t).map ofBranches := by
  unfold parse? alternatives?
  cases Sign.ofText t with
  | none => rfl
  | some signs =>
    simp only [Option.bind_eq_bind, Option.bind_some]
    cases signs.foldlM ReadState.read ReadState.start with
    | none => rfl
    | some last =>
      simp only [Option.bind_some, ReadState.finish?, ReadState.alternatives?]
      cases last.mode <;> rfl

/-- Behind a bar the reading begins anew. -/
theorem read_bar {last : ReadState} {bs : List Branch} (h : last.alternatives? = some bs) :
    last.read (.bare '|') = some (ReadState.start.behind bs) := by
  obtain ⟨branches, branch, mode⟩ := last
  cases mode with
  | outside =>
    cases h
    simp [ReadState.read, ReadState.readOutside, ReadState.closeBranch, ReadState.behind,
      ReadState.start]
  | _ => cases h

/-- The alternatives of two patterns with a bar between them. -/
theorem alternatives?_bar {p : Text} {bs : List Branch} (h : alternatives? p = some bs) (q : Text) :
    alternatives? (p ++ '|' :: q) = (alternatives? q).map (bs ++ ·) := by
  obtain ⟨signs, hsigns, h⟩ := Option.bind_eq_some_iff.mp h
  obtain ⟨last, hlast, h⟩ := Option.bind_eq_some_iff.mp h
  unfold alternatives?
  rw [Sign.ofText_bar hsigns]
  cases Sign.ofText q with
  | none => rfl
  | some rest =>
    simp only [Option.map_some, Option.bind_eq_bind, Option.bind_some, List.foldlM_append,
      List.foldlM_cons, hlast, read_bar h, ReadState.foldlM_read_behind]
    cases rest.foldlM ReadState.read ReadState.start with
    | none => rfl
    | some last' =>
      simp only [Option.map_some, Option.bind_some, ReadState.alternatives?, ReadState.behind]
      cases last'.mode <;> simp

end Pattern

end Backtrack
