import Backtrack.Misuse
import Backtrack.Fault

/-!
# Sequences

A source, a literal, a word and a character set are all sequences of items. A sequence is a text in
one of three forms or a list of items; the items of a text are its characters.
-/

namespace Backtrack

inductive Sequence
  | text (t : Text)
  | tagged (t : Text)
  | wrapped (kind : TextKind) (t : Text)
  | items (vs : List Value)

namespace Sequence

/-- The item of a wrapped text is a wrapped character; those of the other texts are on their own. A
character of a text of any kind is a plain text. -/
def toItems : Sequence → List Value
  | .text t | .tagged t => t.map fun c => .text [c]
  | .wrapped _ t => t.map fun c => .wrapped .plain [c]
  | .items vs => vs

def length : Sequence → Nat
  | .text t | .tagged t | .wrapped _ t => t.length
  | .items vs => vs.length

def item? (s : Sequence) (i : Nat) : Option Value :=
  match s with
  | .text t | .tagged t => t[i]?.map fun c => .text [c]
  | .wrapped _ t => t[i]?.map fun c => .wrapped .plain [c]
  | .items vs => vs[i]?

/-- The fault of reading before the first item, at `back` items from the end. -/
def fault (s : Sequence) (back : Nat) : Fault :=
  if indexLimit < back then .noIndex
  else match s with
    | .items _ => .beforeList
    | _ => .beforeText

/-- The item at `pos`, or `none` at the end and beyond. A negative position counts from the end, and
one before the first item is a fault. -/
def peek (s : Sequence) : Int → Except Fault (Option Value)
  | .ofNat i => .ok (s.item? i)
  | .negSucc i =>
    if i < s.length then .ok (s.item? (s.length - (i + 1))) else .error (s.fault (i + 1))

/-- The sequence as one item. -/
def toValue : Sequence → Value
  | .text t => .text t
  | .tagged t => .tagged t
  | .wrapped kind t => .wrapped kind t
  | .items vs => .list vs

/-- The text that error messages quote: the displayed forms of the unboxed items in a row. -/
def flatten : Sequence → Text
  | .text t | .tagged t | .wrapped _ t => t
  | .items vs => vs.flatMap fun v => v.unbox.display

/-- The characters of a sequence in which every item has to be one. -/
def spell : Sequence → Except Misuse Text
  | .text t | .tagged t | .wrapped _ t => .ok t
  | .items vs => vs.mapM Value.letter

@[simp] theorem length_toItems (s : Sequence) : s.toItems.length = s.length := by
  cases s <;> simp [toItems, length]

theorem item?_eq_toItems (s : Sequence) (i : Nat) : s.item? i = s.toItems[i]? := by
  cases s <;> simp [toItems, item?]

@[simp] theorem peek_ofNat (s : Sequence) (i : Nat) : s.peek i = .ok (s.item? i) := rfl

theorem item?_eq_none {s : Sequence} {i : Nat} : s.item? i = none ↔ s.length ≤ i := by
  rw [item?_eq_toItems, List.getElem?_eq_none_iff, length_toItems]

theorem lt_length_of_item? {s : Sequence} {i : Nat} {v : Value} (h : s.item? i = some v) :
    i < s.length := by
  rw [item?_eq_toItems] at h
  have := List.getElem?_eq_some_iff.mp h
  rw [← length_toItems]
  exact this.1

/-- A position with an item lies before the end. -/
theorem lt_length_of_peek {s : Sequence} {pos : Int} {v : Value} (h : s.peek pos = .ok (some v)) :
    pos < s.length := by
  cases pos with
  | ofNat i =>
    have hi : s.item? i = some v := Except.ok.inj h
    exact Int.ofNat_lt.mpr (lt_length_of_item? hi)
  | negSucc i => exact Int.lt_of_lt_of_le (Int.negSucc_lt_zero i) (Int.natCast_nonneg _)

end Sequence

end Backtrack
