import Backtrack.Grammar
import Backtrack.Parser.Run
import Backtrack.Proofs.Pattern.Joining
import Backtrack.Proofs.Reading

/-!
# Matching one item

A pattern tests the displayed form of an unboxed item and sees nothing else of it. It looks at the
first characters only, so it accepts every longer form too. The item is taken as it is or left where it
is, and there is nothing to take at the end of the input, not even for a pattern that accepts the empty
text.

A bar between two written patterns makes their union, as long as alternatives are merged without a
loss.
-/

namespace Backtrack

namespace Pattern

/-- The laws of matching one item. -/
structure Lawful (P : Pattern) (flags : Flags) : Prop where
  display : ∀ v w : Value, v.unbox.display = w.unbox.display →
    (Test.matching P flags).accepts v = (Test.matching P flags).accepts w
  extension : ∀ v w : Value, v.unbox.display <+: w.unbox.display →
    (Test.matching P flags).accepts v = true → (Test.matching P flags).accepts w = true
  taken : ∀ (expected : String) (src : Sequence) (pos : Int) (v : Value),
    src.peek pos = .ok (some v) → (Test.matching P flags).accepts v = true →
    (Parser.matching P expected flags).run src pos =
      ⟨.success (.spanning none pos (pos + 1) v), pos + 1⟩
  refused : ∀ (expected : String) (src : Sequence) (pos : Int) (v : Value),
    src.peek pos = .ok (some v) → (Test.matching P flags).accepts v = false →
    (Parser.matching P expected flags).run src pos =
      ⟨.failure { pos, cause := .expected expected v }, pos⟩
  ended : ∀ (expected : String) (src : Sequence) (pos : Int), src.length ≤ pos →
    (Parser.matching P expected flags).run src pos =
      ⟨.failure { pos, cause := .expected expected .null }, pos⟩

theorem accepts_of_prefix {P : Pattern} {flags : Flags} {t u : Text} (h : t <+: u)
    (haccepts : P.accepts flags t = true) : P.accepts flags u = true := by
  obtain ⟨rest, rfl⟩ := h
  obtain ⟨b, hb, haccepts⟩ := List.any_eq_true.mp haccepts
  exact List.any_eq_true.mpr ⟨b, hb, Branch.accepts_append flags rest haccepts⟩

theorem run_matching (P : Pattern) (expected : String) (flags : Flags) (src : Sequence) (pos : Int) :
    (Parser.matching P expected flags).run src pos =
      Runner.token src (Test.matching P flags).accepts
        (fun pos v => { pos, cause := .expected expected v }) pos := rfl

theorem lawful (P : Pattern) (flags : Flags) : P.Lawful flags where
  display v w h := congrArg (P.accepts flags) h
  extension v w h := accepts_of_prefix h
  taken expected src pos v hv haccepts := by
    rw [run_matching]
    simp only [Runner.token, hv, haccepts, if_true]
  refused expected src pos v hv haccepts := by
    rw [run_matching]
    simp only [Runner.token, hv, haccepts, Bool.false_eq_true, if_false]
  ended expected src pos h := by
    have hend := Sequence.peek_eq_end.mpr h
    rw [run_matching]
    simp only [Runner.token, hend]

end Pattern

open Pattern (Branch Loses Merged)

/-- The alternatives of the pattern `p|q` are those of `p` and those of `q`. Any pattern accepts an item
exactly if one of its alternatives does so by itself and is not merged into a set that misses its end.
So `p|q` accepts what `p` or `q` accepts, unless one of the three loses an alternative that accepts the
item, and none does unless letters match in either case and beyond ASCII. -/
theorem match_laws (flags : Flags) {p q : Text} {bs bs' : List Branch}
    (hp : Pattern.alternatives? p = some bs) (hq : Pattern.alternatives? q = some bs') :
    Pattern.parse? p = some (.ofBranches bs) ∧ Pattern.parse? q = some (.ofBranches bs') ∧
    Pattern.parse? (p ++ '|' :: q) = some (.ofBranches (bs ++ bs')) ∧
    (∀ v : Value, ¬ Loses flags bs v.unbox.display → ¬ Loses flags bs' v.unbox.display →
      ¬ Loses flags (bs ++ bs') v.unbox.display →
      ((Test.matching (.ofBranches (bs ++ bs')) flags).accepts v = true ↔
        (Test.matching (.ofBranches bs) flags).accepts v = true ∨
        (Test.matching (.ofBranches bs') flags).accepts v = true)) ∧
    (flags.ignoreCase = false ∨ flags.ascii = true → ∀ cs t, ¬ Loses flags cs t) ∧
    (∀ (cs : List Branch) (v : Value), (Test.matching (.ofBranches cs) flags).accepts v = true ↔
      ∃ b ∈ cs, (Test.matching (.ofBranches [b]) flags).accepts v = true ∧
        ¬ (Merged cs ∧ b.EndsMissed flags)) ∧
    ∀ P : Pattern, P.Lawful flags := by
  refine ⟨?_, ?_, ?_, ?_, Pattern.not_loses, ?_, fun P => P.lawful flags⟩
  · rw [Pattern.parse?_eq_map, hp]
    rfl
  · rw [Pattern.parse?_eq_map, hq]
    rfl
  · rw [Pattern.parse?_eq_map, Pattern.alternatives?_bar hp, hq]
    rfl
  · intro v h h' happend
    exact Pattern.accepts_append h h' happend
  · intro cs v
    simp only [Test.accepts, Pattern.accepts_ofBranches_singleton]
    exact Pattern.accepts_ofBranches cs v.unbox.display

/-- A letter and a range that are merged into one set, where case is that of ASCII. -/
theorem match_laws_a_bcd :
    Pattern.alternatives? ['a'] = some [[.letter false 0x61]] ∧
    Pattern.alternatives? ['[', 'b', '-', 'd', ']'] = some [[.set false [.range 0x62 0x64]]] ∧
    ((Test.matching (.ofBranches [[.letter false 0x61], [.set false [.range 0x62 0x64]]])
        { ignoreCase := true, ascii := true }).accepts (.text ['C', 'x']) = true ↔
      (Test.matching (.ofBranches [[.letter false 0x61]])
        { ignoreCase := true, ascii := true }).accepts (.text ['C', 'x']) = true ∨
      (Test.matching (.ofBranches [[.set false [.range 0x62 0x64]]])
        { ignoreCase := true, ascii := true }).accepts (.text ['C', 'x']) = true) := by
  have ha : Pattern.alternatives? ['a'] = some [[.letter false 0x61]] := by rfl
  have hbcd : Pattern.alternatives? ['[', 'b', '-', 'd', ']'] =
      some [[.set false [.range 0x62 0x64]]] := by rfl
  obtain ⟨-, -, -, hunion, hkept, -⟩ := match_laws { ignoreCase := true, ascii := true } ha hbcd
  have hnone := hkept (.inr rfl)
  exact ⟨ha, hbcd, hunion _ (hnone _ _) (hnone _ _) (hnone _ _)⟩

/-- A bar does not always make a union. U+10400 is a capital beyond the basic plane: where letters match
in either case, the pattern of this letter accepts it, but with a digit as an alternative the two are
merged, and the set misses it. -/
theorem bar_loses_capital :
    ¬ ∀ (p q : Text) (P Q R : Pattern) (flags : Flags) (v : Value), Pattern.parse? p = some P →
      Pattern.parse? q = some Q → Pattern.parse? (p ++ '|' :: q) = some R →
      ((Test.matching R flags).accepts v = true ↔
        (Test.matching P flags).accepts v = true ∨ (Test.matching Q flags).accepts v = true) := by
  intro h
  have hunion := h [Char.ofNat 0x10400] ['0'] _ _ _ { ignoreCase := true }
    (.text [Char.ofNat 0x10400]) rfl rfl rfl
  have haccepts := hunion.mpr (.inl (by decide +kernel))
  exact absurd haccepts (by decide +kernel)

end Backtrack
