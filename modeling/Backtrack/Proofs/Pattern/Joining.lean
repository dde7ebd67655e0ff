import Backtrack.Proofs.Pattern.Alternatives
import Backtrack.Proofs.Pattern.Folding
import Mathlib.Data.List.Basic

/-!
# What joined alternatives accept

A pattern accepts a text if one of its alternatives does so by itself, with one exception. Different
alternatives that agree up to a last piece, each a character or a set that is not negated, are merged
into one set, and this set may miss a character that an alternative ends in. So the pattern of `p|q`
accepts what the pattern of `p` or that of `q` accepts, unless one of the three loses an alternative.
-/

namespace Backtrack.Pattern

/-- Different alternatives with a common beginning, behind which each of them gives members to a
set. -/
def Merged (bs : List Branch) : Prop :=
  ∃ front : Branch, ∃ rests : List Branch, bs = rests.map (front ++ ·) ∧
    (∀ r ∈ rests, r.members?.isSome = true) ∧ ∃ r ∈ rests, ∃ r' ∈ rests, r ≠ r'

/-- The alternative ends in a character that a set misses. -/
def Branch.EndsMissed (flags : Flags) (b : Branch) : Prop :=
  ∃ code, b.getLast? = some (.letter false code) ∧ flags.Misses code

/-- The alternatives are merged, and the set misses the end of one that accepts the text by itself. -/
def Loses (flags : Flags) (bs : List Branch) (t : Text) : Prop :=
  Merged bs ∧ ∃ b ∈ bs, b.accepts flags t = true ∧ b.EndsMissed flags

variable {flags : Flags}

theorem exists_piece_of_members? {r : Branch} (h : r.members?.isSome = true) : ∃ p, r = [p] := by
  unfold Branch.members? at h
  split at h
  · exact ⟨_, rfl⟩
  · exact ⟨_, rfl⟩
  · cases h

theorem Merged.ne_nil {bs : List Branch} (h : Merged bs) {b : Branch} (hb : b ∈ bs) : b ≠ [] := by
  obtain ⟨front, rests, rfl, hmembers, -⟩ := h
  obtain ⟨r, hr, rfl⟩ := List.mem_map.mp hb
  obtain ⟨p, rfl⟩ := exists_piece_of_members? (hmembers r hr)
  exact List.append_ne_nil_of_right_ne_nil front (List.cons_ne_nil p [])

/-- Merging looks behind what all alternatives begin with. -/
theorem merged_map_cons {p : Piece} {bs : List Branch} : Merged (bs.map (p :: ·)) ↔ Merged bs := by
  constructor
  · rintro ⟨front, rests, heq, hmembers, r, hr, r', hr', hne⟩
    have hbegins : ∀ x ∈ rests, ∃ b ∈ bs, p :: b = front ++ x := by
      intro x hx
      exact List.mem_map.mp (heq ▸ List.mem_map_of_mem hx)
    cases front with
    | nil =>
      -- the rests begin with `p`, and they are one piece long
      have hpiece : ∀ x ∈ rests, x = [p] := by
        intro x hx
        obtain ⟨q, rfl⟩ := exists_piece_of_members? (hmembers x hx)
        obtain ⟨b, -, hb⟩ := hbegins _ hx
        rw [(List.cons.inj hb).1]
      exact absurd ((hpiece r hr).trans (hpiece r' hr').symm) hne
    | cons q front =>
      obtain ⟨b, -, hb⟩ := hbegins r hr
      obtain rfl : p = q := (List.cons.inj hb).1
      refine ⟨front, rests, ?_, hmembers, r, hr, r', hr', hne⟩
      apply List.map_injective_iff.mpr (List.cons_injective (a := p))
      rw [heq, List.map_map]
      rfl
  · rintro ⟨front, rests, rfl, hmembers, hdiffer⟩
    refine ⟨p :: front, rests, ?_, hmembers, hdiffer⟩
    rw [List.map_map]
    rfl

/-- Alternatives that do not all begin with one piece are merged if each is a member or a set. -/
theorem merged_iff_of_head {p : Piece} {ps : Branch} {others : List Branch}
    (h : ¬ ∀ b ∈ others, b.head? = some p) :
    Merged ((p :: ps) :: others) ↔
      ∀ b ∈ (p :: ps) :: others, (Branch.members? b).isSome = true := by
  constructor
  · rintro ⟨front, rests, heq, hmembers, -⟩
    cases front with
    | nil =>
      simp only [List.nil_append, List.map_id'] at heq
      rw [heq]
      exact hmembers
    | cons q front =>
      have hhead : ∀ b ∈ (p :: ps) :: others, b.head? = some q := by
        intro b hb
        rw [heq] at hb
        obtain ⟨r, -, rfl⟩ := List.mem_map.mp hb
        rfl
      obtain rfl : p = q := Option.some.inj (hhead _ List.mem_cons_self)
      exact absurd (fun b hb => hhead b (List.mem_cons_of_mem _ hb)) h
  · intro hmembers
    refine ⟨[], (p :: ps) :: others, by simp, hmembers, ?_⟩
    obtain ⟨b, hb, hne⟩ : ∃ b ∈ others, b.head? ≠ some p := by simpa using h
    refine ⟨p :: ps, List.mem_cons_self, b, List.mem_cons_of_mem _ hb, ?_⟩
    rintro rfl
    exact hne rfl

theorem endsMissed_cons {p : Piece} {b : Branch} (h : b ≠ []) :
    Branch.EndsMissed flags (p :: b) ↔ b.EndsMissed flags := by
  unfold Branch.EndsMissed
  rw [List.getLast?_cons_of_ne_nil h]

/-- One set with the members of a branch matches what the branch does, unless it is missed. -/
theorem accepts_members {b : Branch} {items : List Item} (h : b.members? = some items) (t : Text) :
    Branch.accepts flags [.set false items] t = true ↔
      b.accepts flags t = true ∧ ¬ b.EndsMissed flags := by
  unfold Branch.members? at h
  split at h
  · next code =>
    cases h
    have hends : Branch.EndsMissed flags [.letter false code] ↔ flags.Misses code := by
      simp [Branch.EndsMissed]
    rw [hends]
    cases t with
    | nil => simp [Branch.accepts]
    | cons c cs =>
      have hset : (Piece.set false [.letter code]).accepts flags c =
          Item.holds flags (.letter code) c := by simp [Piece.accepts]
      simp only [Branch.accepts, Bool.and_true, hset, Item.holds_letter]
      exact and_comm
  · next =>
    cases h
    have hends : ¬ Branch.EndsMissed flags [.set false items] := by simp [Branch.EndsMissed]
    rw [and_iff_left hends]
  · cases h

/-- One set with all members of some branches matches what one with those of a single branch does. -/
theorem accepts_flatten {members : List (List Item)} (t : Text) :
    Branch.accepts flags [.set false members.flatten.eraseDups] t = true ↔
      ∃ items ∈ members, Branch.accepts flags [.set false items] t = true := by
  cases t with
  | nil => simp [Branch.accepts]
  | cons c cs =>
    simp only [Branch.accepts, Piece.accepts, Bool.bne_false, Bool.and_true, List.any_eq_true,
      List.mem_eraseDups, List.mem_flatten]
    constructor
    · rintro ⟨item, ⟨items, hitems, hitem⟩, hholds⟩
      exact ⟨items, hitems, item, hitem, hholds⟩
    · rintro ⟨items, hitems, item, hitem, hholds⟩
      exact ⟨item, ⟨items, hitems, hitem⟩, hholds⟩

/-- United branches accept what one of them does, unless all of them give members to a set and it
misses the end of this branch. -/
theorem accepts_uniteMembers (bs : List Branch) (t : Text) :
    (∃ j ∈ uniteMembers bs, j.accepts flags t = true) ↔
      ∃ b ∈ bs, b.accepts flags t = true ∧
        ¬ ((∀ a ∈ bs, a.members?.isSome = true) ∧ b.EndsMissed flags) := by
  unfold uniteMembers
  cases hmembers : bs.mapM Branch.members? with
  | none =>
    have hnot : ¬ ∀ a ∈ bs, a.members?.isSome = true := by
      intro hall
      have hsome := isSome_mapM.mpr hall
      rw [hmembers] at hsome
      cases hsome
    simp only [hnot, false_and, not_false_eq_true, and_true]
  | some members =>
    have hall : ∀ a ∈ bs, a.members?.isSome = true := isSome_mapM.mp (hmembers ▸ rfl)
    simp only [List.mem_singleton, exists_eq_left, accepts_flatten]
    constructor
    · rintro ⟨items, hitems, haccepts⟩
      obtain ⟨b, hb, hbitems⟩ := (mem_mapM hmembers).mp hitems
      obtain ⟨hbaccepts, hends⟩ := (accepts_members hbitems t).mp haccepts
      exact ⟨b, hb, hbaccepts, fun h => hends h.2⟩
    · rintro ⟨b, hb, haccepts, hends⟩
      obtain ⟨items, hitems⟩ := Option.isSome_iff_exists.mp (hall b hb)
      refine ⟨items, (mem_mapM hmembers).mpr ⟨b, hb, hitems⟩, ?_⟩
      exact (accepts_members hitems t).mpr ⟨haccepts, fun h => hends ⟨hall, h⟩⟩

theorem exists_tails {p : Piece} {bs : List Branch} (h : ∀ b ∈ bs, b.head? = some p) :
    ∃ tails : List Branch, bs = tails.map (p :: ·) := by
  have hcons : ∀ b ∈ bs, p :: List.tail b = b := fun b hb => List.cons_head?_tail (h b hb)
  refine ⟨bs.map List.tail, ?_⟩
  rw [List.map_map]
  exact ((List.map_congr_left hcons).trans (List.map_id' bs)).symm

theorem joinWith_map_cons (p : Piece) (ps : Branch) (others : List Branch) :
    joinWith (p :: ps) (others.map (p :: ·)) = (joinWith ps others).map (p :: ·) := by
  have hhead : (others.map (p :: ·)).all (fun b => b.head? == some p) = true := by simp
  have htail : (others.map (p :: ·)).map List.tail = others := by
    rw [List.map_map]
    exact List.map_id' others
  rw [joinWith, if_pos hhead, htail]

/-- With a piece in front of all branches, one of them accepts if the piece and one of the rests do. -/
theorem exists_accepts_map_cons {p : Piece} {bs : List Branch} {c : Char} {cs : Text}
    {P : Branch → Prop} :
    (∃ b ∈ bs.map (p :: ·), Branch.accepts flags b (c :: cs) = true ∧ P b) ↔
      p.accepts flags c = true ∧ ∃ b ∈ bs, b.accepts flags cs = true ∧ P (p :: b) := by
  constructor
  · rintro ⟨_, hmem, haccepts, hP⟩
    obtain ⟨b, hb, rfl⟩ := List.mem_map.mp hmem
    obtain ⟨hp, haccepts⟩ := Bool.and_eq_true_iff.mp haccepts
    exact ⟨hp, b, hb, haccepts, hP⟩
  · rintro ⟨hp, b, hb, haccepts, hP⟩
    exact ⟨p :: b, List.mem_map_of_mem hb, Bool.and_eq_true_iff.mpr ⟨hp, haccepts⟩, hP⟩

/-- Joined alternatives accept what one of them does, unless they are merged and the set misses its
end. What they begin with in common changes neither. -/
theorem accepts_joinWith (b : Branch) (others : List Branch) (t : Text) :
    (∃ j ∈ joinWith b others, j.accepts flags t = true) ↔
      ∃ a ∈ b :: others, a.accepts flags t = true ∧
        ¬ (Merged (b :: others) ∧ a.EndsMissed flags) := by
  induction b generalizing others t with
  | nil =>
    have hnot : ¬ Merged ([] :: others) := fun h => h.ne_nil List.mem_cons_self rfl
    simp only [joinWith, hnot, false_and, not_false_eq_true, and_true]
  | cons p ps ih =>
    by_cases hheads : ∀ b ∈ others, b.head? = some p
    · obtain ⟨tails, rfl⟩ := exists_tails hheads
      have hcons : (p :: ps) :: List.map (p :: ·) tails = (ps :: tails).map (p :: ·) := rfl
      have hends : ∀ a ∈ ps :: tails, Merged (ps :: tails) ∧ Branch.EndsMissed flags (p :: a) ↔
          Merged (ps :: tails) ∧ Branch.EndsMissed flags a :=
        fun a ha => and_congr_right fun h => endsMissed_cons (h.ne_nil ha)
      rw [joinWith_map_cons, hcons, merged_map_cons]
      cases t with
      | nil => simp [Branch.accepts]
      | cons c cs =>
        calc (∃ j ∈ (joinWith ps tails).map (p :: ·), Branch.accepts flags j (c :: cs) = true)
            ↔ p.accepts flags c = true ∧ ∃ j ∈ joinWith ps tails, j.accepts flags cs = true := by
              simpa only [and_true] using exists_accepts_map_cons (P := fun _ => True)
          _ ↔ p.accepts flags c = true ∧ ∃ a ∈ ps :: tails, Branch.accepts flags a cs = true ∧
                ¬ (Merged (ps :: tails) ∧ Branch.EndsMissed flags (p :: a)) := by
              rw [ih tails cs]
              refine and_congr_right fun _ => exists_congr fun a => and_congr_right fun ha => ?_
              rw [hends a ha]
          _ ↔ _ := by
              rw [exists_accepts_map_cons
                (P := fun a => ¬ (Merged (ps :: tails) ∧ Branch.EndsMissed flags a))]
    · have hunite : joinWith (p :: ps) others = uniteMembers ((p :: ps) :: others) := by
        have hnot : ¬ others.all (fun b => b.head? == some p) = true := by simpa using hheads
        rw [joinWith, if_neg hnot]
      rw [hunite, accepts_uniteMembers, merged_iff_of_head hheads]

/-- A pattern accepts what one of its alternatives accepts, unless the alternatives are merged and the
set misses the end of this one. -/
theorem accepts_ofBranches (bs : List Branch) (t : Text) :
    (ofBranches bs).accepts flags t = true ↔
      ∃ b ∈ bs, b.accepts flags t = true ∧ ¬ (Merged bs ∧ b.EndsMissed flags) := by
  rw [accepts, List.any_eq_true]
  cases bs with
  | nil => simp [ofBranches, joinBranches]
  | cons b others => exact accepts_joinWith b others t

theorem accepts_ofBranches_singleton (b : Branch) (t : Text) :
    (ofBranches [b]).accepts flags t = b.accepts flags t := by
  simp [accepts, ofBranches, joinBranches, joinWith_nil]

/-- Nothing is lost unless letters match in either case and beyond ASCII. -/
theorem not_loses (h : flags.ignoreCase = false ∨ flags.ascii = true) (bs : List Branch) (t : Text) :
    ¬ Loses flags bs t := by
  rintro ⟨-, b, -, -, code, -, hmisses⟩
  exact Flags.not_misses h code hmisses

theorem accepts_of_not_loses {bs : List Branch} {t : Text} (h : ¬ Loses flags bs t) :
    (ofBranches bs).accepts flags t = true ↔ ∃ b ∈ bs, b.accepts flags t = true := by
  rw [accepts_ofBranches]
  constructor
  · rintro ⟨b, hb, haccepts, -⟩
    exact ⟨b, hb, haccepts⟩
  · rintro ⟨b, hb, haccepts⟩
    exact ⟨b, hb, haccepts, fun hends => h ⟨hends.1, b, hb, haccepts, hends.2⟩⟩

/-- If nothing is lost, the alternatives of two patterns together accept what those of the one or those
of the other accept. -/
theorem accepts_append {bs bs' : List Branch} {t : Text} (h : ¬ Loses flags bs t)
    (h' : ¬ Loses flags bs' t) (happend : ¬ Loses flags (bs ++ bs') t) :
    (ofBranches (bs ++ bs')).accepts flags t = true ↔
      (ofBranches bs).accepts flags t = true ∨ (ofBranches bs').accepts flags t = true := by
  rw [accepts_of_not_loses h, accepts_of_not_loses h', accepts_of_not_loses happend]
  simp only [List.mem_append, or_and_right, exists_or]

end Backtrack.Pattern
