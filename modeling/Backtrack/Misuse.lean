import Backtrack.Value

/-!
# Misuse

Mistakes in how a parser is put together. They are found while it is built, before any input is
read.
-/

namespace Backtrack

inductive Misuse
  /-- Where one character is wanted, an item that is not one even when unboxed. -/
  | notACharacter (v : Value)
  /-- A sequence of no parsers. -/
  | emptySequence

def Misuse.message : Misuse → String
  | .notACharacter v => s!"Expected a single character, got {String.ofList v.quoted}."
  | .emptySequence => "At least one parser required."

namespace Value

/-- The character that an item must be. -/
def letter (v : Value) : Except Misuse Char :=
  match v.letter? with
  | some c => .ok c
  | none => .error (.notACharacter v)

theorem letter_eq_ok {v : Value} {c : Char} : v.letter = .ok c ↔ v.letter? = some c := by
  unfold letter
  cases h : v.letter? <;> simp

theorem letter_eq_error {v : Value} {e : Misuse} :
    v.letter = .error e ↔ v.letter? = none ∧ e = .notACharacter v := by
  unfold letter
  cases h : v.letter? <;> simp [eq_comm]

end Value

end Backtrack
