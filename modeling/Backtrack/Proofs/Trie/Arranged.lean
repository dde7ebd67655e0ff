import Backtrack.Proofs.Spelling
import Backtrack.Proofs.Trie.Words

/-!
# Arranged tries

The loop that arranges a trie computes the recursive definition: what it adds to its table for a
node is that node's arranged form, on top of those of the nodes below. As arranging moves whole
children only, it keeps every word.
-/

namespace Backtrack.Trie

theorem lookup_eq_some_iff_mem {ts : List (Char × Trie)} (h : (ts.map Prod.fst).Nodup) {c : Char}
    {t : Trie} : ts.lookup c = some t ↔ (c, t) ∈ ts := by
  induction ts with
  | nil => simp
  | cons x rest ih =>
    obtain ⟨d, u⟩ := x
    obtain ⟨hd, hrest⟩ := List.nodup_cons.mp h
    by_cases hc : c = d
    · subst hc
      have hfresh : (c, t) ∉ rest := fun hm => hd (List.mem_map.mpr ⟨_, hm, rfl⟩)
      simp [hfresh, eq_comm]
    · have hb : (c == d) = false := beq_eq_false_iff_ne.mpr hc
      simp [List.lookup_cons, hb, hc, ih hrest]

theorem lookup_descending {ts : List (Char × Trie)} (h : (ts.map Prod.fst).Nodup) (c : Char) :
    (descending ts).lookup c = ts.lookup c := by
  have hperm := descending_perm ts
  have hkeys : ((descending ts).map Prod.fst).Nodup := (hperm.map Prod.fst).nodup_iff.mpr h
  apply Option.ext
  intro t
  rw [lookup_eq_some_iff_mem hkeys, lookup_eq_some_iff_mem h, hperm.mem_iff]

theorem sortedAll_eq_map (ts : List (Char × Trie)) :
    sortedAll ts = ts.map fun x => (x.1, sorted x.2) := by
  induction ts with
  | nil => rfl
  | cons x rest ih => obtain ⟨c, t⟩ := x; rw [sortedAll, ih, List.map_cons]

theorem lookup_sortedAll (ts : List (Char × Trie)) (c : Char) :
    (sortedAll ts).lookup c = (ts.lookup c).map sorted := by
  induction ts with
  | nil => rfl
  | cons x rest ih =>
    obtain ⟨d, t⟩ := x
    rw [sortedAll, List.lookup_cons, List.lookup_cons, ih]
    cases c == d <;> rfl

theorem keys_sortedAll (ts : List (Char × Trie)) :
    (sortedAll ts).map Prod.fst = ts.map Prod.fst := by
  rw [sortedAll_eq_map, List.map_map]
  rfl

/-- A path leads to the arranged form of the node that it led to before. -/
theorem descend?_sorted {t : Trie} (h : Distinct t) (path : Text) :
    (sorted t).descend? path = (t.descend? path).map sorted := by
  induction path generalizing t with
  | nil => rfl
  | cons c path ih =>
    obtain ⟨hkeys, hbelow⟩ := h
    rename_i ends children
    rw [sorted, descend?_cons, descend?_cons,
      lookup_descending (by rw [keys_sortedAll]; exact hkeys), lookup_sortedAll]
    cases hl : children.lookup c with
    | none => rfl
    | some t =>
      have ht : Distinct t := hbelow _ ((lookup_eq_some_iff_mem hkeys).mp hl)
      exact ih ht

theorem ends_sorted (t : Trie) : (sorted t).ends = t.ends := by
  obtain ⟨ends, children⟩ := t
  rfl

theorem holds_sorted {t : Trie} (h : Distinct t) (word : Text) :
    (sorted t).Holds word ↔ t.Holds word := by
  simp only [Holds, descend?_sorted h, Option.map_eq_some_iff]
  constructor
  · rintro ⟨_, ⟨node, hn, rfl⟩, he⟩
    exact ⟨node, hn, (ends_sorted node) ▸ he⟩
  · rintro ⟨node, hn, he⟩
    exact ⟨sorted node, ⟨node, hn, rfl⟩, (ends_sorted node).trans he⟩

theorem insertDescending_map (x : Char × Trie) (ts : List (Char × Trie)) :
    insertDescending (x.1, sorted x.2) (ts.map fun y => (y.1, sorted y.2)) =
      (insertDescending x ts).map fun y => (y.1, sorted y.2) := by
  induction ts with
  | nil => rfl
  | cons y rest ih =>
    simp only [List.map_cons, insertDescending, ih]
    split <;> rfl

theorem descending_sortedAll (ts : List (Char × Trie)) :
    descending (sortedAll ts) = (descending ts).map fun x => (x.1, sorted x.2) := by
  induction ts with
  | nil => rfl
  | cons x rest ih =>
    obtain ⟨c, t⟩ := x
    rw [sortedAll, descending, ih, descending, ← insertDescending_map]

mutual

/-- The table of a finished node at `a` and of the nodes below it, the newest first. -/
def finished : Trie → Address → Finished
  | .node ends children, a => (a, sorted (.node ends children)) :: finishedBelow children a
termination_by structural t => t

def finishedBelow : List (Char × Trie) → Address → Finished
  | [], _ => []
  | (c, t) :: rest, a => finished t (c :: a) ++ finishedBelow rest a
termination_by structural ts => ts

end

/-- All addresses in the table of a node extend its own. -/
theorem suffix_of_mem_finished (t : Trie) :
    ∀ (a : Address) (x : Address × Trie), x ∈ finished t a → a <:+ x.1 := by
  induction t with
  | node ends children ih =>
    have below : ∀ (ts : List (Char × Trie)), (∀ y ∈ ts, y ∈ children) →
        ∀ (a : Address) (x : Address × Trie), x ∈ finishedBelow ts a → a <:+ x.1 := by
      intro ts
      induction ts with
      | nil => intro _ a x hx; cases hx
      | cons y rest ihr =>
        intro hsub a x hx
        obtain ⟨c, u⟩ := y
        rcases List.mem_append.mp hx with hx | hx
        · have := ih (c, u) (hsub _ List.mem_cons_self) (c :: a) x hx
          exact (List.suffix_cons c a).trans this
        · exact ihr (fun y hy => hsub y (List.mem_cons_of_mem _ hy)) a x hx
    intro a x hx
    rcases List.mem_cons.mp hx with rfl | hx
    · exact List.suffix_refl a
    · exact below children (fun _ hy => hy) a x hx

theorem lookup_finished_self (t : Trie) (a : Address) (done : Finished) :
    (finished t a ++ done).lookup a = some (sorted t) := by
  obtain ⟨ends, children⟩ := t
  simp [finished]

theorem lookup_finished_of_not_suffix {t : Trie} {a b : Address} (h : ¬ a <:+ b)
    (done : Finished) : (finished t a ++ done).lookup b = done.lookup b := by
  have hnone : (finished t a).lookup b = none := by
    rw [List.lookup_eq_none_iff]
    intro x hx
    have hsuffix := suffix_of_mem_finished t a x hx
    exact bne_iff_ne.mpr fun hb => h (hb ▸ hsuffix)
  rw [List.lookup_append, hnone, Option.none_or]

/-- Siblings have different addresses, so each child is found under its own. -/
theorem lookup_finishedBelow {ts : List (Char × Trie)} (hkeys : (ts.map Prod.fst).Nodup)
    (a : Address) (done : Finished) {c : Char} {t : Trie} (h : (c, t) ∈ ts) :
    (finishedBelow ts a ++ done).lookup (c :: a) = some (sorted t) := by
  induction ts with
  | nil => cases h
  | cons x rest ih =>
    obtain ⟨d, u⟩ := x
    obtain ⟨hd, hrest⟩ := List.nodup_cons.mp hkeys
    rw [finishedBelow, List.append_assoc]
    rcases List.mem_cons.mp h with h | h
    · cases h
      exact lookup_finished_self t (c :: a) _
    · have hdc : d ≠ c := fun he => hd (he ▸ List.mem_map.mpr ⟨_, h, rfl⟩)
      have hapart : ¬ (d :: a) <:+ (c :: a) := by
        intro hs
        have := hs.eq_of_length rfl
        exact hdc (List.cons.inj this).1
      rw [lookup_finished_of_not_suffix hapart, ih hrest h]

theorem collect?_eq_map {done : Finished} {a : Address} {ts : List (Char × Trie)}
    (h : ∀ x ∈ ts, done.lookup (x.1 :: a) = some (sorted x.2)) :
    collect? done a ts = some (ts.map fun x => (x.1, sorted x.2)) := by
  induction ts with
  | nil => rfl
  | cons x rest ih =>
    obtain ⟨c, t⟩ := x
    have ht := h (c, t) List.mem_cons_self
    have hrest := ih fun y hy => h y (List.mem_cons_of_mem _ hy)
    simp only [collect?, ht, hrest]
    rfl

/-- Entering a node ends with its table on top of the one before. -/
theorem arrangeLoop_enter {t : Trie} (h : Distinct t) : ∀ (done : Finished) (a : Address)
    (stack : List Visit),
    arrangeLoop done (.enter a t :: stack) = arrangeLoop (finished t a ++ done) stack := by
  induction t with
  | node ends children ih =>
    obtain ⟨hkeys, hbelow⟩ := h
    have all : ∀ (ts : List (Char × Trie)), (∀ y ∈ ts, y ∈ children) →
        ∀ (done : Finished) (a : Address) (stack : List Visit),
        arrangeLoop done (enterAll a ts.reverse ++ stack) =
          arrangeLoop (finishedBelow ts a ++ done) stack := by
      intro ts
      induction ts with
      | nil => intro _ done a stack; rfl
      | cons y rest ihr =>
        intro hsub done a stack
        have hy := hsub y List.mem_cons_self
        have hvisits : enterAll a (y :: rest).reverse ++ stack =
            enterAll a rest.reverse ++ .enter (y.1 :: a) y.2 :: stack := by
          simp [enterAll]
        rw [hvisits, ihr (fun z hz => hsub z (List.mem_cons_of_mem _ hz)),
          ih y hy (hbelow y hy), finishedBelow, List.append_assoc]
    intro done a stack
    have hcollect : collect? (finishedBelow children a ++ done) a (descending children) =
        some (descending (sortedAll children)) := by
      rw [descending_sortedAll]
      exact collect?_eq_map fun x hx =>
        lookup_finishedBelow hkeys a done (mem_descending.mp hx)
    rw [arrangeLoop, visitsOf, List.append_assoc, List.singleton_append,
      all children (fun _ hy => hy), arrangeLoop, hcollect]
    rfl

theorem arrange_eq_sorted {t : Trie} (h : Distinct t) : t.arrange = sorted t := by
  have harrange : t.arrange? = some (sorted t) := by
    rw [arrange?, arrangeLoop_enter h, arrangeLoop]
    exact lookup_finished_self t [] []
  simp only [arrange, harrange, Option.get_some]

theorem ofTexts_eq_sorted (texts : List Text) :
    ofTexts texts = sorted (texts.foldl insert empty) :=
  arrange_eq_sorted (distinct_foldl_insert texts distinct_empty)

/-- The trie of some texts holds these texts and no others. -/
theorem holds_ofTexts (texts : List Text) (word : Text) :
    (ofTexts texts).Holds word ↔ word ∈ texts := by
  rw [ofTexts_eq_sorted, holds_sorted (distinct_foldl_insert texts distinct_empty),
    holds_foldl_insert]
  simp [not_holds_empty]

theorem ofWords_of_spell {words : List Sequence} {texts : List Text}
    (h : List.Forall₂ (fun word text => word.spell = .ok text) words texts) :
    ofWords words = .ok (ofTexts texts) := by
  rw [ofWords, mapM_eq_ok.mpr h]
  rfl

theorem ofWords_literals (words : List Literal) :
    ofWords (words.map Literal.written) = .ok (ofTexts (words.map Literal.letters)) := by
  refine ofWords_of_spell ?_
  rw [List.forall₂_map_left_iff, List.forall₂_map_right_iff, List.forall₂_same]
  intro l _
  exact l.spelled

end Backtrack.Trie
