/-!
# Texts

A text is a list of characters, and a character is one code point. Lengths, positions and columns
all count characters.
-/

namespace Backtrack

abbrev Text := List Char

namespace Text

/-- The characters before position `pos`. A negative position counts from the end of the text, and
a position outside the text is moved to the nearer end. -/
def upTo (t : Text) (pos : Int) : Text :=
  t.take (if pos < 0 then t.length + pos else pos).toNat

theorem upTo_ofNat (t : Text) (n : Nat) : t.upTo n = t.take n := by
  have h : ¬ ((n : Int) < 0) := by omega
  simp [upTo, h]

end Text

end Backtrack
