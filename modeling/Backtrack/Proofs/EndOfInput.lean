import Backtrack.Proofs.Building
import Backtrack.Proofs.Origin

/-!
# The end of the input in failures

A failure that reports what it found has the null item for the end of the input, and its message then
names the end. But the null item may also stand in a source. There it is reported in the same way, so
the null item tells the end from an item only in sources without null items. A null item in a box is an
item like any other.
-/

namespace Backtrack

/-- The null item stands at the end, and where the source has it. -/
theorem Sequence.Stands.eq_null_iff {src : Sequence} {pos : Int} {found : Value}
    (h : src.Stands pos found) :
    found = .null ↔ src.length ≤ pos ∨ src.peek pos = .ok (some .null) := by
  by_cases hpos : pos < src.length
  · have hbefore : ¬ (src.length : Int) ≤ pos := by omega
    rw [h.item hpos, or_iff_right hbefore, Except.ok.injEq, Option.some.injEq]
  · have hend : (src.length : Int) ≤ pos := by omega
    exact iff_of_true (h.ending hend) (.inl hend)

/-- A message about an item found ends with its description. -/
theorem Cause.message_of_found {cause : Cause} {found : Value} (h : cause.found? = some found) :
    ∃ head : String, cause.message = some (head ++ " Found:" ++ describeFound found) := by
  cases cause with
  | plain msg => cases h
  | expected what found' =>
    cases h
    exact ⟨"Expected:" ++ what, rfl⟩
  | mismatch l index what found' =>
    cases h
    refine ⟨s!"In string:'{String.ofList l.letters}' at index:{index}" ++ ", Expected:" ++ what, ?_⟩
    rfl

/-- A failure has found the null item exactly at the end of the input or at a null item of the source,
and exactly then its message names the end, in place of the displayed form of an item. -/
theorem null_found_iff {p : Parser} {src : Sequence} {start next : Int} {f : Failure}
    {found : Value} (h : p.run src start = ⟨.failure f, next⟩)
    (hfound : f.cause.found? = some found) :
    (found = .null ↔ src.length ≤ f.pos ∨ src.peek f.pos = .ok (some .null)) ∧
    ∃ head what : String, f.message = some (head ++ " Found:" ++ what) ∧
      (found = .null → what = "end of input") ∧
      (found ≠ .null → what = String.ofList found.unbox.display) := by
  obtain ⟨head, hmessage⟩ := Cause.message_of_found hfound
  refine ⟨(Parser.stands_found h hfound).eq_null_iff, head, describeFound found, hmessage, ?_,
    describeFound_item⟩
  intro hnull
  rw [hnull]
  rfl

/-- A null item behind a number, which is refused where there is one more item to come. -/
theorem null_found_iff_item :
    (Parser.sequence .digit [.digit]).run (.items [.int 7, .null, .int 8]) 0 =
      ⟨.failure { pos := 1, cause := .expected "any digit" .null }, 1⟩ ∧
    (Cause.expected "any digit" .null).found? = some .null ∧
    (Value.null = .null ↔ (3 : Int) ≤ 1 ∨
      (Sequence.items [.int 7, .null, .int 8]).peek 1 = .ok (some .null)) := by
  have hrun : (Parser.sequence .digit [.digit]).run (.items [.int 7, .null, .int 8]) 0 =
      ⟨.failure { pos := 1, cause := .expected "any digit" .null }, 1⟩ := by rfl
  exact ⟨hrun, rfl, (null_found_iff hrun rfl).1⟩

/-- So the end of the input is not reported at the end only, even without seeks and raises: a digit
that is wanted where the only item is null is said to have met the end. -/
theorem null_item_reported_as_end :
    ¬ ∀ (g : Grammar) (p : Parser), g.lacks .seek = true → g.lacks .raise = true →
      g.build.result = .ok p → ∀ (src : Sequence) (start : Nat) (f : Failure) (next : Int)
        (found : Value), p.run src start = ⟨.failure f, next⟩ → f.cause.found? = some found →
        (found = .null ↔ src.length ≤ f.pos) := by
  intro h
  have hrun : Parser.digit.run (.items [.null]) (0 : Nat) =
      ⟨.failure { pos := 0, cause := .expected "any digit" .null }, 0⟩ := by rfl
  have hend := h .digit .digit rfl rfl rfl (.items [.null]) 0 _ _ .null hrun rfl
  exact absurd (hend.mp rfl) (by decide)

end Backtrack
