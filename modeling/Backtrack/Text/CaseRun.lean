/-!
# Runs of case mappings

A mapping between the cases of letters moves whole runs of code points by the same distance, so it
is kept as a table of runs.
-/

namespace Backtrack

/-- Every `step`-th code point from `first` to `last` is mapped to the one at `distance`. -/
structure CaseRun where
  first : Nat
  last : Nat
  step : Nat
  distance : Int

namespace CaseRun

def holds (r : CaseRun) (n : Nat) : Bool :=
  r.first ≤ n && n ≤ r.last && (n - r.first) % r.step == 0

def move (r : CaseRun) (n : Nat) : Nat := ((n : Int) + r.distance).toNat

/-- Where the runs map a code point; outside them it stays. -/
def image (runs : List CaseRun) (n : Nat) : Nat :=
  match runs.find? (·.holds n) with
  | some r => r.move n
  | none => n

/-- The code points in the runs that are mapped to `n`. -/
def sources (runs : List CaseRun) (n : Nat) : List Nat :=
  runs.filterMap fun r =>
    let m := ((n : Int) - r.distance).toNat
    if r.holds m && r.move m == n then some m else none

theorem move_of_mem_sources {runs : List CaseRun} {m n : Nat} (h : m ∈ sources runs n) :
    ∃ r ∈ runs, r.holds m = true ∧ r.move m = n := by
  obtain ⟨r, hr, hm⟩ := List.mem_filterMap.mp h
  simp only [Bool.and_eq_true, beq_iff_eq] at hm
  split at hm
  · next hc => cases hm; exact ⟨r, hr, hc⟩
  · cases hm

end CaseRun

end Backtrack
