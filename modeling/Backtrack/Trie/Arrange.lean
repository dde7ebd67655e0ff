import Backtrack.Trie.Basic

/-!
# Arranging a trie

The finished form of a trie has the children of every node in descending order of their keys, so
that words come out in descending order too. It is built bottom up by a loop over a stack of visits.
A node is entered, which schedules its children, and left once they are done; finished nodes are
kept in a table by their address. Main statement: the children of a node are always in the table
when it is left, so the loop never ends without a trie.
-/

namespace Backtrack.Trie

def insertDescending (x : Char × Trie) : List (Char × Trie) → List (Char × Trie)
  | [] => [x]
  | y :: rest => if y.1 < x.1 then x :: y :: rest else y :: insertDescending x rest

def descending : List (Char × Trie) → List (Char × Trie)
  | [] => []
  | x :: rest => insertDescending x (descending rest)

theorem insertDescending_perm (x : Char × Trie) (ts : List (Char × Trie)) :
    (insertDescending x ts).Perm (x :: ts) := by
  induction ts with
  | nil => exact List.Perm.refl _
  | cons y rest ih =>
    rw [insertDescending]
    split
    · exact List.Perm.refl _
    · exact (ih.cons y).trans (List.Perm.swap x y rest)

theorem descending_perm (ts : List (Char × Trie)) : (descending ts).Perm ts := by
  induction ts with
  | nil => exact List.Perm.refl _
  | cons x rest ih => exact (insertDescending_perm x _).trans (ih.cons x)

theorem mem_descending {y : Char × Trie} {ts : List (Char × Trie)} :
    y ∈ descending ts ↔ y ∈ ts := (descending_perm ts).mem_iff

mutual

/-- The arranged trie by recursion. -/
def sorted : Trie → Trie
  | .node ends children => .node ends (descending (sortedAll children))
termination_by structural t => t

def sortedAll : List (Char × Trie) → List (Char × Trie)
  | [] => []
  | (c, t) :: rest => (c, sorted t) :: sortedAll rest
termination_by structural ts => ts

end

/-- The keys from the root to a node, the last one first. -/
abbrev Address := Text

/-- Finished nodes, the newest first. -/
abbrev Finished := List (Address × Trie)

inductive Visit
  | enter (a : Address) (t : Trie)
  | leave (a : Address) (t : Trie)

def Visit.weight : Visit → Nat
  | .enter _ t => 2 * t.size
  | .leave _ _ => 1

/-- The finished forms of the children of the node at `a`. -/
def collect? (done : Finished) (a : Address) : List (Char × Trie) → Option (List (Char × Trie))
  | [] => some []
  | (c, _) :: rest => do
    let t ← done.lookup (c :: a)
    return (c, t) :: (← collect? done a rest)

def enterAll (a : Address) (children : List (Char × Trie)) : List Visit :=
  children.map fun x => .enter (x.1 :: a) x.2

/-- What entering a node schedules: its children, the last one first, and then the node again. -/
def visitsOf (a : Address) (ends : Bool) (children : List (Char × Trie)) : List Visit :=
  enterAll a children.reverse ++ [.leave a (.node ends children)]

theorem total_enterAll (a : Address) (ts : List (Char × Trie)) :
    total Visit.weight (enterAll a ts) = 2 * sizeAll ts := by
  induction ts with
  | nil => rfl
  | cons x rest ih =>
    obtain ⟨k, t⟩ := x
    simp only [enterAll, List.map_cons, total_cons, Visit.weight, sizeAll] at ih ⊢
    omega

/-- Takes one visit after the other and adds the finished nodes to the table. -/
def arrangeLoop (done : Finished) : List Visit → Option Finished
  | [] => some done
  | .enter a (.node ends children) :: stack =>
    arrangeLoop done (visitsOf a ends children ++ stack)
  | .leave a (.node ends children) :: stack =>
    match collect? done a (descending children) with
    | some arranged => arrangeLoop ((a, .node ends arranged) :: done) stack
    | none => none
termination_by stack => total Visit.weight stack
decreasing_by
  · simp only [visitsOf, total_append, total_cons, total_nil, Visit.weight, size, total_enterAll,
      sizeAll_reverse]
    omega
  · simp [Visit.weight]

def arrange? (t : Trie) : Option Trie := do
  let done ← arrangeLoop [] [.enter [] t]
  done.lookup []

/-- The node at an address is in the table. -/
def IsFinished (done : Finished) (a : Address) : Prop := (done.lookup a).isSome = true

theorem isFinished_cons {done : Finished} {a b : Address} (t : Trie) (h : IsFinished done b) :
    IsFinished ((a, t) :: done) b := by
  simp only [IsFinished, List.lookup_cons] at h ⊢
  split <;> simp_all

theorem isFinished_cons_self (done : Finished) (a : Address) (t : Trie) :
    IsFinished ((a, t) :: done) a := by
  simp [IsFinished]

theorem collect?_isSome {done : Finished} {a : Address} {ts : List (Char × Trie)}
    (h : ∀ x ∈ ts, IsFinished done (x.1 :: a)) : ∃ us, collect? done a ts = some us := by
  induction ts with
  | nil => exact ⟨[], rfl⟩
  | cons x rest ih =>
    obtain ⟨us, hus⟩ := ih fun y hy => h y (List.mem_cons_of_mem _ hy)
    obtain ⟨t, ht⟩ := Option.isSome_iff_exists.mp (h x List.mem_cons_self)
    obtain ⟨k, _⟩ := x
    exact ⟨(k, t) :: us, by simp only [collect?, ht, hus]; rfl⟩

/-- The loop goes on behind a scheduled visit with its node finished, and all that were finished
before. -/
def LoopFinishes (t : Trie) : Prop :=
  ∀ (done : Finished) (a : Address) (stack : List Visit), ∃ done' : Finished,
    arrangeLoop done (.enter a t :: stack) = arrangeLoop done' stack ∧
      (∀ b, IsFinished done b → IsFinished done' b) ∧ IsFinished done' a

theorem loopFinishes_all {ts : List (Char × Trie)} (h : ∀ x ∈ ts, LoopFinishes x.2) (a : Address)
    (done : Finished) (stack : List Visit) : ∃ done' : Finished,
    arrangeLoop done (enterAll a ts ++ stack) = arrangeLoop done' stack ∧
      (∀ b, IsFinished done b → IsFinished done' b) ∧ ∀ x ∈ ts, IsFinished done' (x.1 :: a) := by
  induction ts generalizing done with
  | nil => exact ⟨done, rfl, fun _ hb => hb, by simp⟩
  | cons x rest ih =>
    obtain ⟨d₁, e₁, m₁, h₁⟩ :=
      h x List.mem_cons_self done (x.1 :: a) (enterAll a rest ++ stack)
    obtain ⟨d₂, e₂, m₂, h₂⟩ := ih (fun y hy => h y (List.mem_cons_of_mem _ hy)) d₁
    refine ⟨d₂, ?_, fun b hb => m₂ b (m₁ b hb), ?_⟩
    · rw [← e₂, ← e₁]; rfl
    · intro y hy
      rcases List.mem_cons.mp hy with rfl | hy
      · exact m₂ _ h₁
      · exact h₂ y hy

theorem loopFinishes (t : Trie) : LoopFinishes t := by
  induction t with
  | node ends children ih =>
    intro done a stack
    have kids : ∀ x ∈ children.reverse, LoopFinishes x.2 := fun x hx => ih x (List.mem_reverse.mp hx)
    obtain ⟨d, e, m, k⟩ := loopFinishes_all kids a done (.leave a (.node ends children) :: stack)
    have kids_done : ∀ x ∈ descending children, IsFinished d (x.1 :: a) :=
      fun x hx => k x (List.mem_reverse.mpr (mem_descending.mp hx))
    obtain ⟨us, hus⟩ := collect?_isSome kids_done
    refine ⟨(a, .node ends us) :: d, ?_, fun b hb => isFinished_cons _ (m b hb),
      isFinished_cons_self _ _ _⟩
    rw [arrangeLoop, visitsOf, List.append_assoc, List.singleton_append, e, arrangeLoop, hus]

theorem arrange?_isSome (t : Trie) : t.arrange?.isSome = true := by
  obtain ⟨d, e, _, h⟩ := loopFinishes t [] [] []
  rw [arrange?, e, arrangeLoop]
  exact h

/-- The trie with the children of every node in descending order. -/
def arrange (t : Trie) : Trie := t.arrange?.get t.arrange?_isSome

end Backtrack.Trie
