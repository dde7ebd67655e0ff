import Backtrack.Text.Quoted

/-!
# Tries

A trie keeps a set of words by their common beginnings: each node says whether a word ends there and
has a child for every character that a longer word goes on with. Insertion leaves the children of a
node in the order of arrival.
-/

namespace Backtrack

inductive Trie
  | node (ends : Bool) (children : List (Char × Trie))

namespace Trie

/-- Induction with a hypothesis for every child of a node. -/
@[induction_eliminator]
theorem induct {motive : Trie → Prop}
    (node : ∀ ends children, (∀ x ∈ children, motive x.2) → motive (.node ends children))
    (t : Trie) : motive t :=
  @Trie.rec motive (fun children => ∀ x ∈ children, motive x.2) (fun x => motive x.2) node
    (fun x hx => by cases hx)
    (fun x rest hx hrest y hy => (List.mem_cons.mp hy).elim (fun h => h ▸ hx) (hrest y))
    (fun _ _ h => h) t

def empty : Trie := .node false []

def ends : Trie → Bool
  | .node ends _ => ends

def children : Trie → List (Char × Trie)
  | .node _ children => children

/-- The child under a key. Keys are single characters, so no other text has one. -/
def child? (t : Trie) (key : Text) : Option Trie :=
  match key with
  | [c] => t.children.lookup c
  | _ => none

/-- The node at the end of a path from `t`, unless the path leaves the trie. -/
def descend? : Trie → Text → Option Trie
  | t, [] => some t
  | t, c :: path =>
    match t.child? [c] with
    | some next => descend? next path
    | none => none

/-- Changes the child under `c`, which is made empty and put last if it is missing. -/
def adjust (c : Char) (f : Trie → Trie) : List (Char × Trie) → List (Char × Trie)
  | [] => [(c, f empty)]
  | (k, t) :: rest => if k = c then (k, f t) :: rest else (k, t) :: adjust c f rest

def insert : Trie → Text → Trie
  | .node _ children, [] => .node true children
  | .node ends children, c :: word =>
    .node ends (adjust c (fun t => insert t word) children)

mutual

/-- The number of nodes. -/
def size : Trie → Nat
  | .node _ children => 1 + sizeAll children
termination_by structural t => t

def sizeAll : List (Char × Trie) → Nat
  | [] => 0
  | (_, t) :: rest => size t + sizeAll rest
termination_by structural ts => ts

end

mutual

/-- The length of the longest path. -/
def height : Trie → Nat
  | .node _ children => heightBelow children
termination_by structural t => t

def heightBelow : List (Char × Trie) → Nat
  | [] => 0
  | (_, t) :: rest => max (height t + 1) (heightBelow rest)
termination_by structural ts => ts

end

mutual

/-- The words, each behind `stem`: those of the children in order, then `stem` itself if a word ends
at this node. -/
def spellings : Trie → Text → List Text
  | .node ends children, stem => spellingsBelow children stem ++ (if ends then [stem] else [])
termination_by structural t => t

def spellingsBelow : List (Char × Trie) → Text → List Text
  | [], _ => []
  | (c, t) :: rest, stem => spellings t (stem ++ [c]) ++ spellingsBelow rest stem
termination_by structural ts => ts

end

mutual

/-- All nodes with their paths behind `stem`, a node before those below it. -/
def nodes : Trie → Text → List (Text × Trie)
  | .node ends children, stem => (stem, .node ends children) :: nodesBelow children stem
termination_by structural t => t

def nodesBelow : List (Char × Trie) → Text → List (Text × Trie)
  | [], _ => []
  | (c, t) :: rest, stem => nodes t (stem ++ [c]) ++ nodesBelow rest stem
termination_by structural ts => ts

end

/-- The measures of all members together. -/
def total {α : Type} (measure : α → Nat) : List α → Nat
  | [] => 0
  | x :: rest => measure x + total measure rest

@[simp] theorem total_nil {α : Type} (measure : α → Nat) : total measure [] = 0 := rfl

@[simp] theorem total_cons {α : Type} (measure : α → Nat) (x : α) (rest : List α) :
    total measure (x :: rest) = measure x + total measure rest := rfl

@[simp] theorem total_append {α : Type} (measure : α → Nat) (xs ys : List α) :
    total measure (xs ++ ys) = total measure xs + total measure ys := by
  induction xs with
  | nil => rw [List.nil_append, total_nil, Nat.zero_add]
  | cons x xs ih => rw [List.cons_append, total_cons, total_cons, ih, Nat.add_assoc]

theorem sizeAll_append (ts us : List (Char × Trie)) :
    sizeAll (ts ++ us) = sizeAll ts + sizeAll us := by
  induction ts with
  | nil => simp [sizeAll]
  | cons x rest ih =>
    obtain ⟨k, t⟩ := x
    simp only [List.cons_append, sizeAll, ih]
    omega

theorem sizeAll_reverse (ts : List (Char × Trie)) : sizeAll ts.reverse = sizeAll ts := by
  induction ts with
  | nil => rfl
  | cons x rest ih =>
    obtain ⟨k, t⟩ := x
    simp only [List.reverse_cons, sizeAll_append, ih, sizeAll]
    omega

theorem heightBelow_append (ts us : List (Char × Trie)) :
    heightBelow (ts ++ us) = max (heightBelow ts) (heightBelow us) := by
  induction ts with
  | nil => simp [heightBelow]
  | cons x rest ih =>
    obtain ⟨k, t⟩ := x
    simp only [List.cons_append, heightBelow, ih]
    omega

theorem heightBelow_reverse (ts : List (Char × Trie)) : heightBelow ts.reverse = heightBelow ts := by
  induction ts with
  | nil => rfl
  | cons x rest ih =>
    obtain ⟨k, t⟩ := x
    simp only [List.reverse_cons, heightBelow_append, ih, heightBelow]
    omega

/-- One node: whether it ends a word, and the keys of its children. -/
def display (t : Trie) : String :=
  let mark := if t.ends then " terminal" else ""
  let keys := String.ofList (Text.quoted (t.children.map Prod.fst))
  s!"<TrieNode{mark} {keys}>"

end Trie

end Backtrack
