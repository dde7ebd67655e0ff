import Backtrack.Sequence
import Backtrack.Trie.Basic

/-!
# Walking a trie along a source

A walk follows the edges that the items of a source spell, as far as there are any, and keeps the
length of the longest word that it has passed. It may run on behind that word before it gets stuck.
-/

namespace Backtrack.Trie

structure Walk where
  node : Trie
  pos : Int
  /-- The characters of the edges followed so far. -/
  read : Text := []
  /-- The length of the longest word passed so far. -/
  longest : Option Nat

namespace Walk

def start (root : Trie) (pos : Int) : Walk :=
  { node := root, pos, longest := if root.ends then some 0 else none }

/-- Follows the edge `key` to `next`. -/
def follow (w : Walk) (key : Text) (next : Trie) : Walk :=
  let read := w.read ++ key
  { node := next, pos := w.pos + 1, read
    longest := if next.ends then some read.length else w.longest }

/-- The walk behind an item, if the item is a text that the node has an edge for. -/
def step? (w : Walk) (v : Value) : Option Walk :=
  match v.text? with
  | some key => (w.node.child? key).map (w.follow key)
  | none => none

/-- A step depends on the bare item only. -/
theorem step?_congr (w : Walk) {v v' : Value} (h : v.bare = v'.bare) : w.step? v = w.step? v' := by
  rw [step?, step?, Value.text?_congr h]

theorem pos_of_step? {w w' : Walk} {v : Value} (h : w.step? v = some w') :
    w'.pos = w.pos + 1 := by
  unfold step? at h
  split at h
  · obtain ⟨next, _, rfl⟩ := Option.map_eq_some_iff.mp h
    rfl
  · cases h

/-- Steps along the source until it ends or there is no edge for the next item. -/
def run (src : Sequence) (w : Walk) : Except Fault Walk :=
  match _ : src.peek w.pos with
  | .error e => .error e
  | .ok none => .ok w
  | .ok (some v) =>
    match _ : w.step? v with
    | none => .ok w
    | some next => run src next
termination_by (src.length - w.pos).toNat
decreasing_by
  have hnext := pos_of_step? ‹w.step? v = some next›
  have hpos := Sequence.lt_length_of_peek ‹src.peek w.pos = .ok (some v)›
  omega

/-- One turn of the loop. -/
theorem run_eq (src : Sequence) (w : Walk) :
    w.run src =
      match src.peek w.pos with
      | .error e => .error e
      | .ok none => .ok w
      | .ok (some v) =>
        match w.step? v with
        | none => .ok w
        | some next => next.run src := by
  rw [run]
  split
  · next hv => rw [hv]
  · next hv => rw [hv]
  · next v hv =>
    rw [hv]
    split
    · next hw => simp only [hw]
    · next hw => simp only [hw]

end Walk

end Backtrack.Trie
