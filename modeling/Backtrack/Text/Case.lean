import Backtrack.Text.LowerCase

/-!
# Letters that differ in case only

Two code points are variants of each other if their lower-case forms are equal or are twins, that is
lower-case letters that share an upper-case form (`s` and the long s).
-/

namespace Backtrack.Text

def twinForms : List (List Nat) :=
  [
    [0x69, 0x131], [0x73, 0x17F], [0xB5, 0x3BC], [0x345, 0x3B9, 0x1FBE], [0x390, 0x1FD3],
    [0x3B0, 0x1FE3], [0x3B2, 0x3D0], [0x3B5, 0x3F5], [0x3B8, 0x3D1], [0x3BA, 0x3F0],
    [0x3C0, 0x3D6], [0x3C1, 0x3F1], [0x3C2, 0x3C3], [0x3C6, 0x3D5], [0x432, 0x1C80],
    [0x434, 0x1C81], [0x43E, 0x1C82], [0x441, 0x1C83], [0x442, 0x1C84, 0x1C85], [0x44A, 0x1C86],
    [0x463, 0x1C87], [0x1C88, 0xA64B], [0x1E61, 0x1E9B], [0xFB05, 0xFB06]
  ]

/-- A lower-case form together with its twins. -/
def twinsOf (n : Nat) : List Nat := (twinForms.find? (·.contains n)).getD [n]

/-- All code points that differ from `n` in case only, `n` included. -/
def caseVariants (n : Nat) : List Nat :=
  let forms := twinsOf (lowerForm n)
  forms ++ forms.flatMap (CaseRun.sources lowerRuns)

def asciiLower (n : Nat) : Nat := if 0x41 ≤ n ∧ n ≤ 0x5A then n + 0x20 else n

def asciiUpper (n : Nat) : Nat := if 0x61 ≤ n ∧ n ≤ 0x7A then n - 0x20 else n

/-- The same for the letters of ASCII; any other code point has no variant but itself. -/
def asciiVariants (n : Nat) : List Nat := [asciiLower n, asciiUpper n]

end Backtrack.Text
