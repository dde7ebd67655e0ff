import Backtrack.Proofs.Trie.Canonical
import Backtrack.Proofs.Trie.Enumeration

/-!
# The loops turn by turn

The three loops over a stack are taken apart into turns. Each turn of a loop lowers a measure of the
stack by one, so the loop ends after as many turns as the measure says. Depth takes one turn for each
node, the words take one for each node and one for each word, and arranging takes two for each node,
which is entered and left. What the loop still has to compute stays the same from turn to turn, so that
at the end the result is what the recursive definition says. A node is only left while its children are
in the table, and the table ends with every node once.
-/

namespace Backtrack

/-- `n` turns lead from the first state to the last, where there is none left to take. -/
inductive Ends {σ : Type} (turn : σ → Option σ) : Nat → σ → σ → Prop
  | stop {s : σ} (h : turn s = none) : Ends turn 0 s s
  | next {n : Nat} {s next last : σ} (h : turn s = some next) (hlast : Ends turn n next last) :
    Ends turn (n + 1) s last

namespace Ends

variable {σ : Type} {turn : σ → Option σ} {n : Nat} {s last : σ}

theorem stopped (h : Ends turn n s last) : turn last = none := by
  induction h with
  | stop h => exact h
  | next _ _ ih => exact ih

/-- What every turn keeps holds at the end. -/
theorem keeps {P : σ → Prop} (hturn : ∀ s next, turn s = some next → P s → P next)
    (h : Ends turn n s last) (hs : P s) : P last := by
  induction h with
  | stop _ => exact hs
  | next h _ ih => exact ih (hturn _ _ h hs)

/-- With a measure that every turn lowers by one there is an end. The measure has gone down by the
number of turns, and what no turn changes is what it was. -/
theorem exists_end {α : Type} {m : σ → Nat} {f : σ → α}
    (hm : ∀ s next, turn s = some next → m s = m next + 1)
    (hf : ∀ s next, turn s = some next → f next = f s) (s : σ) :
    ∃ n last, Ends turn n s last ∧ m s = m last + n ∧ f last = f s := by
  induction hn : m s generalizing s with
  | zero =>
    refine ⟨0, s, .stop ?_, hn.symm, rfl⟩
    cases h : turn s with
    | none => rfl
    | some next =>
      have hlower := hm s next h
      omega
  | succ n ih =>
    cases h : turn s with
    | none => exact ⟨0, s, .stop h, hn.symm, rfl⟩
    | some next =>
      have hlower := hm s next h
      obtain ⟨k, last, hlast, hcount, hvalue⟩ := ih next (by omega)
      exact ⟨k + 1, last, .next h hlast, by omega, hvalue.trans (hf s next h)⟩

end Ends

namespace Trie

def depthTurn : List (Trie × Nat) × Nat → Option (List (Trie × Nat) × Nat)
  | ([], _) => none
  | ((.node _ children, level) :: stack, best) =>
    some (childLevels level children ++ stack, max best level)

theorem depthTurn_eq_none {stack : List (Trie × Nat)} {best : Nat}
    (h : depthTurn (stack, best) = none) : stack = [] := by
  cases stack with
  | nil => rfl
  | cons x stack =>
    obtain ⟨⟨ends, children⟩, level⟩ := x
    cases h

theorem depthTurn_lowers {s next : List (Trie × Nat) × Nat} (h : depthTurn s = some next) :
    total (fun x => x.1.size) s.1 = total (fun x => x.1.size) next.1 + 1 := by
  obtain ⟨stack, best⟩ := s
  cases stack with
  | nil => cases h
  | cons x stack =>
    obtain ⟨⟨ends, children⟩, level⟩ := x
    cases h
    simp only [total_append, total_cons, size, total_childLevels]
    omega

theorem depthLoop_turn {s next : List (Trie × Nat) × Nat} (h : depthTurn s = some next) :
    depthLoop next.1 next.2 = depthLoop s.1 s.2 := by
  obtain ⟨stack, best⟩ := s
  cases stack with
  | nil => cases h
  | cons x stack =>
    obtain ⟨⟨ends, children⟩, level⟩ := x
    cases h
    rw [depthLoop]

theorem ends_depth (t : Trie) : Ends depthTurn t.size ([(t, 0)], 0) ([], t.height) := by
  obtain ⟨n, ⟨stack, best⟩, hends, hcount, hloop⟩ := Ends.exists_end
    (f := fun s => depthLoop s.1 s.2) (fun _ _ => depthTurn_lowers) (fun _ _ => depthLoop_turn)
    ([(t, 0)], 0)
  obtain rfl := depthTurn_eq_none hends.stopped
  have hbest : best = t.height := by
    rw [← depth_eq_height, depth, ← hloop, depthLoop]
  simp only [total_cons, total_nil] at hcount
  obtain rfl : n = t.size := by omega
  exact hbest ▸ hends

/-- The words still to come lie on the stack, and those that have come out stand beside it. -/
def wordsTurn : List Pending × List Text → Option (List Pending × List Text)
  | ([], _) => none
  | (.word path :: stack, out) => some (stack, out ++ [path])
  | (.below (.node ends children) path :: stack, out) =>
    some (pendingOf ends children path ++ stack, out)

/-- A turn for each node and for each word. -/
def Pending.turns : Pending → Nat
  | .below t path => t.size + (t.spellings path).length
  | .word _ => 1

theorem wordsTurn_eq_none {stack : List Pending} {out : List Text}
    (h : wordsTurn (stack, out) = none) : stack = [] := by
  match stack, h with
  | [], _ => rfl
  | .below (.node ends children) path :: stack, h => cases h

theorem total_turns_below (ts : List (Char × Trie)) (path : Text) :
    total Pending.turns (ts.map fun x => .below x.2 (path ++ [x.1])) =
      sizeAll ts + (spellingsBelow ts path).length := by
  induction ts with
  | nil => rfl
  | cons x rest ih =>
    obtain ⟨c, t⟩ := x
    simp only [List.map_cons, total_cons, Pending.turns, sizeAll, spellingsBelow,
      List.length_append, ih]
    omega

theorem wordsTurn_lowers {s next : List Pending × List Text} (h : wordsTurn s = some next) :
    total Pending.turns s.1 = total Pending.turns next.1 + 1 := by
  obtain ⟨stack, out⟩ := s
  match stack, h with
  | .word path :: stack, h =>
    cases h
    simp only [total_cons, Pending.turns]
    omega
  | .below (.node ends children) path :: stack, h =>
    cases h
    have hbelow := total_turns_below children path
    cases ends
    · simp only [pendingOf, total_append, total_cons, Pending.turns, size, spellings,
        Bool.false_eq_true, if_false, List.append_nil, hbelow]
      omega
    · simp only [pendingOf, total_append, total_cons, total_nil, Pending.turns, size, spellings,
        if_true, List.length_append, List.length_singleton, hbelow]
      omega

theorem wordsLoop_turn {s next : List Pending × List Text} (h : wordsTurn s = some next) :
    next.2 ++ wordsLoop next.1 = s.2 ++ wordsLoop s.1 := by
  obtain ⟨stack, out⟩ := s
  match stack, h with
  | .word path :: stack, h =>
    cases h
    rw [wordsLoop, List.append_assoc, List.singleton_append]
  | .below (.node ends children) path :: stack, h =>
    cases h
    rw [wordsLoop]

theorem ends_words (t : Trie) (stem : Text) :
    Ends wordsTurn (t.size + (t.spellings stem).length) ([.below t stem], [])
      ([], t.spellings stem) := by
  obtain ⟨n, ⟨stack, out⟩, hends, hcount, hloop⟩ := Ends.exists_end
    (f := fun s => s.2 ++ wordsLoop s.1) (fun _ _ => wordsTurn_lowers)
    (fun _ _ => wordsLoop_turn) ([.below t stem], [])
  obtain rfl := wordsTurn_eq_none hends.stopped
  have hout : out = t.spellings stem := by
    rw [← words_eq_spellings, words, ← List.nil_append (wordsLoop _), ← hloop, wordsLoop,
      List.append_nil]
  simp only [total_cons, total_nil, Pending.turns] at hcount
  obtain rfl : n = t.size + (t.spellings stem).length := by omega
  exact hout ▸ hends

/-- There is no turn at the end of the stack, and none where a child is missing in the table. -/
def arrangeTurn : Finished × List Visit → Option (Finished × List Visit)
  | (_, []) => none
  | (done, .enter a (.node ends children) :: stack) =>
    some (done, visitsOf a ends children ++ stack)
  | (done, .leave a (.node ends children) :: stack) =>
    (collect? done a (descending children)).map fun arranged =>
      ((a, .node ends arranged) :: done, stack)

/-- The children of each node were in the table before it, as they are found in the node. -/
def Grounded : Finished → Prop
  | [] => True
  | (a, t) :: earlier =>
    (∀ x ∈ t.children, earlier.lookup (x.1 :: a) = some x.2) ∧ Grounded earlier

theorem arrangeTurn_lowers {s next : Finished × List Visit} (h : arrangeTurn s = some next) :
    total Visit.weight s.2 = total Visit.weight next.2 + 1 := by
  obtain ⟨done, stack⟩ := s
  match stack, h with
  | .enter a (.node ends children) :: stack, h =>
    cases h
    simp only [visitsOf, total_append, total_cons, total_nil, Visit.weight, size, total_enterAll,
      sizeAll_reverse]
    omega
  | .leave a (.node ends children) :: stack, h =>
    obtain ⟨arranged, -, rfl⟩ := Option.map_eq_some_iff.mp h
    simp only [total_cons, Visit.weight]
    omega

theorem arrangeLoop_turn {s next : Finished × List Visit} (h : arrangeTurn s = some next) :
    arrangeLoop next.1 next.2 = arrangeLoop s.1 s.2 := by
  obtain ⟨done, stack⟩ := s
  match stack, h with
  | .enter a (.node ends children) :: stack, h =>
    cases h
    rw [arrangeLoop]
  | .leave a (.node ends children) :: stack, h =>
    obtain ⟨arranged, hcollect, rfl⟩ := Option.map_eq_some_iff.mp h
    rw [arrangeLoop, hcollect]

/-- Without a turn left the loop is at its end, or gives up. -/
theorem arrangeLoop_of_stopped {done : Finished} {stack : List Visit}
    (h : arrangeTurn (done, stack) = none) :
    arrangeLoop done stack = if stack = [] then some done else none := by
  match stack, h with
  | [], _ => rw [arrangeLoop]; rfl
  | .enter a (.node ends children) :: stack, h => cases h
  | .leave a (.node ends children) :: stack, h =>
    have hcollect := Option.map_eq_none_iff.mp h
    rw [arrangeLoop, hcollect]
    rfl

theorem lookup_of_collect? {done : Finished} {a : Address} {ts us : List (Char × Trie)}
    (h : collect? done a ts = some us) : ∀ x ∈ us, done.lookup (x.1 :: a) = some x.2 := by
  induction ts generalizing us with
  | nil =>
    cases h
    intro x hx
    cases hx
  | cons y rest ih =>
    obtain ⟨c, _⟩ := y
    obtain ⟨t, ht, h⟩ := Option.bind_eq_some_iff.mp h
    obtain ⟨vs, hvs, h⟩ := Option.bind_eq_some_iff.mp h
    cases h
    intro x hx
    rcases List.mem_cons.mp hx with rfl | hx
    · exact ht
    · exact ih hvs x hx

theorem grounded_turn {s next : Finished × List Visit} (h : arrangeTurn s = some next)
    (hs : Grounded s.1) : Grounded next.1 := by
  obtain ⟨done, stack⟩ := s
  match stack, h with
  | .enter a (.node ends children) :: stack, h =>
    cases h
    exact hs
  | .leave a (.node ends children) :: stack, h =>
    obtain ⟨arranged, hcollect, rfl⟩ := Option.map_eq_some_iff.mp h
    exact ⟨lookup_of_collect? hcollect, hs⟩

/-- The loop takes two turns for each node and ends with the table of all nodes. -/
theorem ends_arrange {t : Trie} (h : Distinct t) :
    Ends arrangeTurn (2 * t.size) ([], [.enter [] t]) (finished t [], []) := by
  obtain ⟨n, ⟨done, stack⟩, hends, hcount, hloop⟩ := Ends.exists_end
    (f := fun s => arrangeLoop s.1 s.2) (fun _ _ => arrangeTurn_lowers)
    (fun _ _ => arrangeLoop_turn) ([], [.enter [] t])
  have htable : arrangeLoop done stack = some (finished t []) := by
    rw [hloop, arrangeLoop_enter h, arrangeLoop, List.append_nil]
  rw [arrangeLoop_of_stopped hends.stopped] at htable
  split at htable
  · next hstack =>
    cases htable
    subst hstack
    simp only [total_cons, total_nil, Visit.weight] at hcount
    obtain rfl : n = 2 * t.size := by omega
    exact hends
  · cases htable

theorem grounded_finished {t : Trie} (h : Distinct t) : Grounded (finished t []) := by
  have hstart : Grounded [] := trivial
  exact (ends_arrange h).keeps (P := fun s => Grounded s.1) (fun _ _ => grounded_turn) hstart

/-- The table of a node has its nodes in order, each under its path from the end. -/
theorem finished_eq_map (t : Trie) (stem : Text) :
    finished t stem.reverse = (t.nodes stem).map fun x => (x.1.reverse, sorted x.2) := by
  induction t generalizing stem with
  | node ends children ih =>
    have hbelow : ∀ ts : List (Char × Trie), (∀ x ∈ ts, x ∈ children) →
        finishedBelow ts stem.reverse =
          (nodesBelow ts stem).map fun x => (x.1.reverse, sorted x.2) := by
      intro ts
      induction ts with
      | nil => intro _; rfl
      | cons y rest ihr =>
        intro hsub
        obtain ⟨c, u⟩ := y
        have hu := ih (c, u) (hsub _ List.mem_cons_self) (stem ++ [c])
        have hrest := ihr fun z hz => hsub z (List.mem_cons_of_mem _ hz)
        rw [List.reverse_append, List.reverse_singleton, List.singleton_append] at hu
        rw [finishedBelow, nodesBelow, List.map_append, hrest, hu]
    rw [finished, nodes, List.map_cons, hbelow children fun _ hx => hx]

theorem mem_finishedBelow {children : List (Char × Trie)} {a : Address} {entry : Address × Trie} :
    entry ∈ finishedBelow children a ↔ ∃ x ∈ children, entry ∈ finished x.2 (x.1 :: a) := by
  induction children with
  | nil => simp [finishedBelow]
  | cons x rest ih =>
    obtain ⟨c, t⟩ := x
    simp [finishedBelow, ih]

/-- An address ends with the key of the child that it stands below. -/
theorem key_eq_of_mem_finished {t u : Trie} {c d : Char} {a : Address} {x y : Address × Trie}
    (hx : x ∈ finished t (c :: a)) (hy : y ∈ finished u (d :: a)) (h : x.1 = y.1) : c = d := by
  have hsuffix := suffix_of_mem_finished _ _ x hx
  have hsuffix' := suffix_of_mem_finished _ _ y hy
  rw [← h] at hsuffix'
  have hkey := (List.suffix_of_suffix_length_le hsuffix hsuffix' le_rfl).eq_of_length rfl
  exact (List.cons.inj hkey).1

/-- No two nodes are finished under one address. -/
theorem apart_finished {t : Trie} (h : Distinct t) (a : Address) :
    (finished t a).Pairwise fun x y => x.1 ≠ y.1 := by
  induction t generalizing a with
  | node ends children ih =>
    obtain ⟨hkeys, hdistinct⟩ := h
    have hchildren : ∀ ts : List (Char × Trie), (∀ x ∈ ts, x ∈ children) →
        (ts.map Prod.fst).Nodup → (finishedBelow ts a).Pairwise fun x y => x.1 ≠ y.1 := by
      intro ts
      induction ts with
      | nil => intro _ _; exact List.Pairwise.nil
      | cons y rest ihr =>
        intro hsub hnodup
        obtain ⟨hfresh, hnodup⟩ := List.nodup_cons.mp hnodup
        have hy := hsub y List.mem_cons_self
        rw [finishedBelow]
        refine List.pairwise_append.mpr ⟨ih y hy (hdistinct y hy) _,
          ihr (fun z hz => hsub z (List.mem_cons_of_mem _ hz)) hnodup, ?_⟩
        intro x hx x' hx' heq
        obtain ⟨z, hz, hx'⟩ := mem_finishedBelow.mp hx'
        exact hfresh (key_eq_of_mem_finished hx hx' heq ▸ List.mem_map_of_mem hz)
    refine List.pairwise_cons.mpr ⟨?_, hchildren children (fun _ hx => hx) hkeys⟩
    intro entry hentry heq
    obtain ⟨x, _, hentry⟩ := mem_finishedBelow.mp hentry
    have hlength := (suffix_of_mem_finished _ _ entry hentry).length_le
    simp only [← heq, List.length_cons] at hlength
    omega

/-- Every node of a draft is one. -/
theorem Distinct.of_mem_nodes {t node : Trie} {path : Text} (h : Distinct t)
    (hmem : (path, node) ∈ t.nodes []) : Distinct node :=
  descend?_invariant (fun _ _ ht _ => ht.child) h ((mem_nodes_nil h path node).mp hmem)

/-- A node is arranged by arranging its children and putting them in falling order. -/
theorem arrange_node {ends : Bool} {children : List (Char × Trie)}
    (h : Distinct (.node ends children)) : ∃ arranged, arrange (.node ends children) =
      .node ends arranged ∧ arranged.Perm (children.map fun x => (x.1, x.2.arrange)) ∧
      (arranged.map Prod.fst).Pairwise fun earlier later => later < earlier := by
  have hchildren : children.map (fun x => (x.1, x.2.arrange)) = sortedAll children := by
    rw [sortedAll_eq_map]
    exact List.map_congr_left fun x hx => by rw [arrange_eq_sorted (h.child hx)]
  refine ⟨descending (sortedAll children), ?_, ?_, ?_⟩
  · rw [arrange_eq_sorted h, sorted]
  · rw [hchildren]
    exact descending_perm _
  · obtain ⟨hkeys, -⟩ := h
    exact descending_keys (by rw [keys_sortedAll]; exact hkeys)

end Trie

open Trie

/-- The loops over a stack compute the recursive definitions. Arranging a draft takes two turns for each
node and ends with the arranged form of every node, each once and behind its children; so the lookup of
a child never misses. The arranged form of a node has the arranged children in falling order of their
keys. Depth takes one turn for each node of a trie, whatever the order of the children, and the words
take one for each node and each word. -/
theorem stack_loops_compute_recursion {ends : Bool} {children : List (Char × Trie)}
    (h : Distinct (.node ends children)) (t : Trie) (stem : Text) :
    (∃ table : Finished,
      Ends arrangeTurn (2 * (Trie.node ends children).size) ([], [.enter [] (.node ends children)])
        (table, []) ∧
      arrangeLoop [] [.enter [] (.node ends children)] = some table ∧
      table = ((Trie.node ends children).nodes []).map (fun x => (x.1.reverse, x.2.arrange)) ∧
      (table.map Prod.fst).Nodup ∧ Grounded table) ∧
    (∃ arranged, (Trie.node ends children).arrange = .node ends arranged ∧
      arranged.Perm (children.map fun x => (x.1, x.2.arrange)) ∧
      (arranged.map Prod.fst).Pairwise fun earlier later => later < earlier) ∧
    (Ends depthTurn t.size ([(t, 0)], 0) ([], t.height) ∧ t.depth = t.height) ∧
    Ends wordsTurn (t.size + (t.spellings stem).length) ([.below t stem], []) ([], t.spellings stem) ∧
      t.words stem = t.spellings stem := by
  refine ⟨⟨finished (.node ends children) [], ends_arrange h, ?_, ?_, ?_, grounded_finished h⟩,
    arrange_node h, ⟨ends_depth t, depth_eq_height t⟩, ends_words t stem, words_eq_spellings t stem⟩
  · rw [arrangeLoop_enter h, arrangeLoop, List.append_nil]
  · have htable := finished_eq_map (.node ends children) []
    rw [List.reverse_nil] at htable
    rw [htable]
    exact List.map_congr_left fun x hx => by rw [arrange_eq_sorted (h.of_mem_nodes hx)]
  · exact List.pairwise_map.mpr (apart_finished h [])

/-- A draft of `b` and `ca`. Its node under `c` is entered first, and so its table begins with the
root and ends with the node under `c` and `a`. -/
theorem stack_loops_compute_recursion_ca :
    ∃ draft : Trie,
      draft = .node false [('b', .node true []), ('c', .node false [('a', .node true [])])] ∧
      Distinct draft ∧
      (∃ table, Ends arrangeTurn 8 ([], [.enter [] draft]) (table, []) ∧
        table.map Prod.fst = [[], ['b'], ['c'], ['a', 'c']] ∧ Grounded table) ∧
      draft.arrange = .node false [('c', .node false [('a', .node true [])]), ('b', .node true [])] ∧
      Ends depthTurn 4 ([(draft, 0)], 0) ([], 2) ∧
      Ends wordsTurn 6 ([.below draft ['x']], []) ([], [['x', 'b'], ['x', 'c', 'a']]) := by
  have hleaf : Distinct (.node true []) := .node List.nodup_nil fun _ hx => by cases hx
  have hdraft : Distinct
      (.node false [('b', .node true []), ('c', .node false [('a', .node true [])])]) := by
    refine .node (by decide) ?_
    simp only [List.mem_cons, List.not_mem_nil, or_false, forall_eq_or_imp, forall_eq]
    refine ⟨hleaf, .node (by decide) ?_⟩
    simp only [List.mem_cons, List.not_mem_nil, or_false, forall_eq]
    exact hleaf
  obtain ⟨⟨table, hends, -, htable, -, hgrounded⟩, -, ⟨hdepth, -⟩, hwords, -⟩ :=
    stack_loops_compute_recursion hdraft
      (.node false [('b', .node true []), ('c', .node false [('a', .node true [])])]) ['x']
  refine ⟨_, rfl, hdraft, ⟨table, hends, ?_, hgrounded⟩, ?_, hdepth, hwords⟩
  · rw [htable]
    rfl
  · rw [arrange_eq_sorted hdraft]
    rfl

end Backtrack
