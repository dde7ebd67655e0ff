import Backtrack.Trie.Basic

/-!
# Walking a trie with an explicit stack

Depth and words are computed by loops over a stack of subtrees, so that long words need no deep
recursion. The loops end because what they push weighs less than what they take, and they compute
`height` and `spellings`.
-/

namespace Backtrack.Trie

def atLevel (level : Nat) (ts : List (Char × Trie)) : List (Trie × Nat) :=
  ts.map fun x => (x.2, level)

/-- What a node adds to the stack: its children, the last one first, with the level below its own. -/
def childLevels (level : Nat) (children : List (Char × Trie)) : List (Trie × Nat) :=
  atLevel (level + 1) children.reverse

theorem total_atLevel (level : Nat) (ts : List (Char × Trie)) :
    total (fun x => x.1.size) (atLevel level ts) = sizeAll ts := by
  induction ts with
  | nil => rfl
  | cons x rest ih =>
    obtain ⟨k, t⟩ := x
    simp only [atLevel, List.map_cons, total_cons, sizeAll] at ih ⊢
    omega

theorem total_childLevels (level : Nat) (children : List (Char × Trie)) :
    total (fun x => x.1.size) (childLevels level children) = sizeAll children := by
  rw [childLevels, total_atLevel, sizeAll_reverse]

/-- The greatest of `best` and the levels of all nodes on or below the stack. -/
def depthLoop : List (Trie × Nat) → Nat → Nat
  | [], best => best
  | (.node _ children, level) :: stack, best =>
    depthLoop (childLevels level children ++ stack) (max best level)
termination_by stack => total (fun x => x.1.size) stack
decreasing_by
  simp only [total_append, total_cons, size, total_childLevels]
  omega

/-- The length of the longest path below the node. -/
def depth (t : Trie) : Nat := depthLoop [(t, 0)] 0

inductive Pending
  /-- The words below a node at a path. -/
  | below (t : Trie) (path : Text)
  | word (path : Text)

def Pending.weight : Pending → Nat
  | .below t _ => 2 * t.size
  | .word _ => 1

/-- What a node adds to the stack: its children in order, then the word that ends at it. -/
def pendingOf (ends : Bool) (children : List (Char × Trie)) (path : Text) : List Pending :=
  (children.map fun x => .below x.2 (path ++ [x.1])) ++ if ends then [.word path] else []

theorem total_below (ts : List (Char × Trie)) (path : Text) :
    total Pending.weight (ts.map fun x => .below x.2 (path ++ [x.1])) = 2 * sizeAll ts := by
  induction ts with
  | nil => rfl
  | cons x rest ih =>
    obtain ⟨k, t⟩ := x
    simp only [List.map_cons, total_cons, Pending.weight, sizeAll] at ih ⊢
    omega

theorem total_pendingOf (ends : Bool) (ts : List (Char × Trie)) (path : Text) :
    total Pending.weight (pendingOf ends ts path) ≤ 2 * sizeAll ts + 1 := by
  have h := total_below ts path
  cases ends
  · simp only [pendingOf, Bool.false_eq_true, if_false, List.append_nil]
    omega
  · simp only [pendingOf, if_true, total_append, total_cons, total_nil, Pending.weight]
    omega

def wordsLoop : List Pending → List Text
  | [] => []
  | .word path :: stack => path :: wordsLoop stack
  | .below (.node ends children) path :: stack => wordsLoop (pendingOf ends children path ++ stack)
termination_by stack => total Pending.weight stack
decreasing_by
  · simp [Pending.weight]
  · have := total_pendingOf ends children path
    simp only [total_append, total_cons, Pending.weight, size]
    omega

/-- Every word below the node behind `stem`, the longest first along each path. -/
def words (t : Trie) (stem : Text) : List Text := wordsLoop [.below t stem]

/-- A pass over the stack yields the height of each subtree above its level. -/
theorem depthLoop_cons (t : Trie) : ∀ (level best : Nat) (stack : List (Trie × Nat)),
    depthLoop ((t, level) :: stack) best = depthLoop stack (max best (level + t.height)) := by
  induction t with
  | node ends children ih =>
    have all : ∀ ts : List (Char × Trie), (∀ x ∈ ts, x ∈ children) →
        ∀ (level best : Nat) (stack : List (Trie × Nat)), level ≤ best →
        depthLoop (atLevel (level + 1) ts ++ stack) best =
          depthLoop stack (max best (level + heightBelow ts)) := by
      intro ts
      induction ts with
      | nil =>
        intro _ level best stack hl
        simp [atLevel, heightBelow, Nat.max_eq_left hl]
      | cons x rest ihr =>
        intro hsub level best stack hl
        obtain ⟨k, t⟩ := x
        have hk := ih (k, t) (hsub _ List.mem_cons_self) (level + 1) best
          (atLevel (level + 1) rest ++ stack)
        have hr := ihr (fun y hy => hsub y (List.mem_cons_of_mem _ hy)) level
          (max best (level + 1 + t.height)) stack (by omega)
        simp only [atLevel, List.map_cons, List.cons_append, heightBelow] at hk hr ⊢
        rw [hk, hr]
        congr 1
        omega
    intro level best stack
    have hchildren := all children.reverse (fun _ hx => List.mem_reverse.mp hx) level
      (max best level) stack (Nat.le_max_right best level)
    rw [depthLoop, childLevels, hchildren, heightBelow_reverse, height]
    congr 1
    omega

theorem depth_eq_height (t : Trie) : t.depth = t.height := by
  rw [depth, depthLoop_cons, depthLoop]
  omega

/-- The words of a subtree come out before those of the rest of the stack. -/
theorem wordsLoop_below (t : Trie) : ∀ (path : Text) (stack : List Pending),
    wordsLoop (.below t path :: stack) = t.spellings path ++ wordsLoop stack := by
  induction t with
  | node ends children ih =>
    have all : ∀ ts : List (Char × Trie), (∀ x ∈ ts, x ∈ children) →
        ∀ (path : Text) (stack : List Pending),
        wordsLoop ((ts.map fun x => .below x.2 (path ++ [x.1])) ++ stack) =
          spellingsBelow ts path ++ wordsLoop stack := by
      intro ts
      induction ts with
      | nil => intro _ path stack; rfl
      | cons x rest ihr =>
        intro hsub path stack
        obtain ⟨k, t⟩ := x
        have hk := ih (k, t) (hsub _ List.mem_cons_self)
        have hr := ihr fun y hy => hsub y (List.mem_cons_of_mem _ hy)
        rw [List.map_cons, List.cons_append, hk, hr, spellingsBelow, List.append_assoc]
    intro path stack
    rw [wordsLoop, pendingOf, List.append_assoc, all children fun _ hx => hx, spellings]
    cases ends <;> simp [wordsLoop]

theorem words_eq_spellings (t : Trie) (stem : Text) : t.words stem = t.spellings stem := by
  rw [words, wordsLoop_below, wordsLoop, List.append_nil]

end Backtrack.Trie
