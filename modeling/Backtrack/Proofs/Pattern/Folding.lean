import Backtrack.Pattern.Basic

/-!
# Letters beyond the basic plane

A set looks up a member beyond the basic plane among the folded forms of the input, while a single
character matches all its variants. The two agree on every code point that is its own folded form. One
that is not, such as a capital where letters match in either case, is no folded form of anything, and
so a set that has it as a member misses it. This rests on the tables: beyond the basic plane no run of
the case mappings leads to a code point that is mapped further, and there are no twins.
-/

namespace Backtrack

open Pattern (lastBasic)

namespace Text

theorem lowerRuns_move : ∀ r ∈ lowerRuns, r.distance ≠ 0 ∧ 0 ≤ (r.first : Int) + r.distance := by
  decide +kernel

/-- What a run leads to beyond the basic plane is in no run. -/
theorem lowerRuns_apart : ∀ r ∈ lowerRuns, (lastBasic : Int) < r.last + r.distance →
    ∀ r' ∈ lowerRuns, (r.last : Int) + r.distance < r'.first ∨
      (r'.last : Int) < r.first + r.distance := by
  decide +kernel

theorem twinForms_basic : ∀ forms ∈ twinForms, ∀ n ∈ forms, n ≤ lastBasic := by
  decide +kernel

variable {n code : Nat}

theorem bounds_of_holds {r : CaseRun} (h : r.holds n = true) : r.first ≤ n ∧ n ≤ r.last := by
  simp only [CaseRun.holds, Bool.and_eq_true, decide_eq_true_eq] at h
  exact h.1

theorem cast_move {r : CaseRun} (hr : r ∈ lowerRuns) (h : r.holds n = true) :
    (r.move n : Int) = n + r.distance := by
  obtain ⟨-, hfirst⟩ := lowerRuns_move r hr
  obtain ⟨hn, -⟩ := bounds_of_holds h
  rw [CaseRun.move, Int.toNat_of_nonneg]
  omega

/-- A code point is mapped by a run that holds it, or not at all. -/
theorem lowerForm_cases (n : Nat) :
    (∃ r ∈ lowerRuns, r.holds n = true ∧ lowerForm n = r.move n) ∨
      (∀ r ∈ lowerRuns, r.holds n = false) ∧ lowerForm n = n := by
  unfold lowerForm CaseRun.image
  cases h : lowerRuns.find? (·.holds n) with
  | none =>
    right
    refine ⟨?_, rfl⟩
    intro r hr
    exact Bool.not_eq_true _ ▸ List.find?_eq_none.mp h r hr
  | some r =>
    left
    have hholds := List.find?_some h
    exact ⟨r, List.mem_of_find?_eq_some h, hholds, rfl⟩

/-- No run holds a code point that is its own lower-case form. -/
theorem holds_of_lowerForm_self (h : lowerForm n = n) : ∀ r ∈ lowerRuns, r.holds n = false := by
  rcases lowerForm_cases n with ⟨r, hr, hholds, hmove⟩ | ⟨hnone, -⟩
  · obtain ⟨hdistance, -⟩ := lowerRuns_move r hr
    have hcast := cast_move hr hholds
    rw [← hmove, h] at hcast
    omega
  · exact hnone

/-- Beyond the basic plane a lower-case form is its own. -/
theorem lowerForm_lowerForm (h : lowerForm n = code) (hcode : lastBasic < code) :
    lowerForm code = code := by
  rcases lowerForm_cases n with ⟨r, hr, hholds, hmove⟩ | ⟨-, hself⟩
  · rcases lowerForm_cases code with ⟨r', hr', hholds', -⟩ | ⟨-, hself⟩
    · -- the code point would be where the first run leads to and in the second
      have hcast := cast_move hr hholds
      rw [← hmove, h] at hcast
      obtain ⟨hfirst, hlast⟩ := bounds_of_holds hholds
      obtain ⟨hfirst', hlast'⟩ := bounds_of_holds hholds'
      rcases lowerRuns_apart r hr (by omega) r' hr' with hapart | hapart
      · omega
      · omega
    · exact hself
  · rw [← h, hself]
    exact hself

theorem mem_twinsOf_self (n : Nat) : n ∈ twinsOf n := by
  unfold twinsOf
  cases h : twinForms.find? (·.contains n) with
  | none => exact List.mem_singleton_self n
  | some forms =>
    have hcontains := List.find?_some h
    exact List.contains_iff_mem.mp hcontains

theorem mem_twinsOf (hcode : lastBasic < code) : code ∈ twinsOf n ↔ n = code := by
  constructor
  · intro h
    unfold twinsOf at h
    cases hfind : twinForms.find? (·.contains n) with
    | none =>
      rw [hfind] at h
      exact (List.mem_singleton.mp h).symm
    | some forms =>
      rw [hfind] at h
      have hbasic := twinForms_basic forms (List.mem_of_find?_eq_some hfind) code h
      omega
  · rintro rfl
    exact mem_twinsOf_self n

/-- Beyond the basic plane the lower-case form of a variant is a code point exactly if this is its own
lower-case form. -/
theorem lowerForm_eq_iff (hcode : lastBasic < code) :
    lowerForm n = code ↔ lowerForm code = code ∧ code ∈ caseVariants n := by
  constructor
  · intro h
    refine ⟨lowerForm_lowerForm h hcode, List.mem_append_left _ ?_⟩
    exact (mem_twinsOf hcode).mpr h
  · rintro ⟨hself, hmem⟩
    rcases List.mem_append.mp hmem with htwin | hsource
    · exact (mem_twinsOf hcode).mp htwin
    · obtain ⟨form, -, hsource⟩ := List.mem_flatMap.mp hsource
      obtain ⟨r, hr, hholds, -⟩ := CaseRun.move_of_mem_sources hsource
      rw [holds_of_lowerForm_self hself r hr] at hholds
      cases hholds

theorem asciiLower_eq_iff (hcode : lastBasic < code) :
    asciiLower n = code ↔ asciiLower code = code ∧ code ∈ asciiVariants n := by
  have hbasic : 0x7F < code := Nat.lt_trans (by decide) hcode
  simp only [asciiVariants, List.mem_cons, List.not_mem_nil, or_false, asciiLower, asciiUpper]
  split <;> split <;> split <;> omega

end Text

namespace Flags

/-- A set does not match a member that lies beyond the basic plane and is not its own folded form. -/
def Misses (flags : Flags) (code : Nat) : Prop := lastBasic < code ∧ flags.fold code ≠ code

variable {flags : Flags} {n code : Nat}

theorem fold_eq_iff (hcode : lastBasic < code) :
    flags.fold n = code ↔ flags.fold code = code ∧ code ∈ flags.variants n := by
  unfold fold variants
  split
  · split
    · exact Text.asciiLower_eq_iff hcode
    · exact Text.lowerForm_eq_iff hcode
  · rw [List.mem_singleton, eq_self, true_and, eq_comm]

/-- Nothing is missed unless letters match in either case and beyond ASCII. -/
theorem not_misses (h : flags.ignoreCase = false ∨ flags.ascii = true) (code : Nat) :
    ¬ flags.Misses code := by
  rintro ⟨hcode, hfold⟩
  apply hfold
  have hbasic : 0x7F < code := Nat.lt_trans (by decide) hcode
  unfold fold
  split
  · next hignore =>
    rw [hignore] at h
    rw [if_pos (h.resolve_left (by decide)), Text.asciiLower]
    split <;> omega
  · rfl

end Flags

/-- A set matches a character as its member exactly if the character matches it by itself, unless it
is missed. -/
theorem Pattern.Item.holds_letter (flags : Flags) (code : Nat) (c : Char) :
    Item.holds flags (.letter code) c = true ↔
      ¬ flags.Misses code ∧ (Piece.letter false code).accepts flags c = true := by
  have hholds : Item.holds flags (.letter code) c =
      if code ≤ lastBasic then (flags.variants c.toNat).contains code
      else flags.fold c.toNat == code := rfl
  have haccepts : (Piece.letter false code).accepts flags c = true ↔
      code ∈ flags.variants c.toNat := by
    rw [Piece.accepts, Bool.bne_false, List.contains_iff_mem]
  rw [hholds, haccepts]
  by_cases hcode : code ≤ lastBasic
  · have hnot : ¬ flags.Misses code := fun h => absurd h.1 (Nat.not_lt.mpr hcode)
    rw [if_pos hcode, List.contains_iff_mem, and_iff_right hnot]
  · have hlast := Nat.lt_of_not_le hcode
    rw [if_neg hcode, beq_iff_eq, Flags.fold_eq_iff hlast, Flags.Misses, and_iff_right hlast,
      Decidable.not_not]

end Backtrack
