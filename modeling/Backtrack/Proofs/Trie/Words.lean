import Backtrack.Trie.OfWords
import Mathlib.Data.List.Nodup
import Mathlib.Data.List.Perm.Basic

/-!
# The words of a trie

A trie holds a word if the path of the word ends at a node where a word ends. Inserting a word adds
just that word, and arranging keeps all words as long as no node has two children under one key,
which insertion takes care of. So the trie of some texts holds these texts and no others.
-/

namespace Backtrack.Trie

/-- The path of the word stays inside the trie and ends where a word ends. -/
def Holds (t : Trie) (word : Text) : Prop :=
  ∃ node, t.descend? word = some node ∧ node.ends = true

theorem descend?_cons (ends : Bool) (children : List (Char × Trie)) (c : Char) (path : Text) :
    (Trie.node ends children).descend? (c :: path) =
      (children.lookup c).bind fun t => t.descend? path := by
  simp only [descend?, child?, Trie.children]
  cases children.lookup c <;> rfl

theorem holds_nil (ends : Bool) (children : List (Char × Trie)) :
    (Trie.node ends children).Holds [] ↔ ends = true := by
  constructor
  · rintro ⟨node, hn, he⟩
    cases hn
    exact he
  · intro h
    exact ⟨_, rfl, h⟩

theorem holds_cons (ends : Bool) (children : List (Char × Trie)) (c : Char) (word : Text) :
    (Trie.node ends children).Holds (c :: word) ↔
      ∃ t, children.lookup c = some t ∧ t.Holds word := by
  simp only [Holds, descend?_cons, Option.bind_eq_some_iff]
  constructor
  · rintro ⟨node, ⟨t, ht, hn⟩, he⟩
    exact ⟨t, ht, node, hn, he⟩
  · rintro ⟨t, ht, node, hn, he⟩
    exact ⟨node, ⟨t, ht, hn⟩, he⟩

theorem not_holds_empty (word : Text) : ¬ empty.Holds word := by
  cases word with
  | nil => rw [empty, holds_nil]; decide
  | cons c word => rw [empty, holds_cons]; simp

/-- A path of two parts is followed part by part. -/
theorem descend?_append (t : Trie) (p q : Text) :
    t.descend? (p ++ q) = (t.descend? p).bind fun node => node.descend? q := by
  induction p generalizing t with
  | nil => rfl
  | cons c p ih =>
    obtain ⟨ends, children⟩ := t
    rw [List.cons_append, descend?_cons, descend?_cons]
    cases children.lookup c with
    | none => rfl
    | some next => exact ih next

theorem lookup_adjust (c k : Char) (f : Trie → Trie) (children : List (Char × Trie)) :
    (adjust c f children).lookup k =
      if k = c then some (f ((children.lookup c).getD empty)) else children.lookup k := by
  induction children with
  | nil => by_cases h : k = c <;> simp [adjust, h]
  | cons x rest ih =>
    obtain ⟨d, t⟩ := x
    by_cases hd : d = c
    · subst hd
      by_cases hk : k = d
      · simp [adjust, hk]
      · have hb : (k == d) = false := beq_eq_false_iff_ne.mpr hk
        simp [adjust, List.lookup_cons, hb, hk]
    · by_cases hk : k = d
      · subst hk
        simp [adjust, hd]
      · have hb : (k == d) = false := beq_eq_false_iff_ne.mpr hk
        have hc : (c == d) = false := beq_eq_false_iff_ne.mpr (Ne.symm hd)
        simp only [adjust, hd, ↓reduceIte, List.lookup_cons, hb, hc, ih]

theorem holds_insert (t : Trie) (word u : Text) :
    (t.insert word).Holds u ↔ u = word ∨ t.Holds u := by
  induction word generalizing t u with
  | nil =>
    obtain ⟨ends, children⟩ := t
    cases u with
    | nil => simp [insert, holds_nil]
    | cons d u => simp [insert, holds_cons]
  | cons c word ih =>
    obtain ⟨ends, children⟩ := t
    cases u with
    | nil => simp [insert, holds_nil]
    | cons d u =>
      rw [insert, holds_cons, holds_cons, lookup_adjust]
      by_cases hd : d = c
      · subst hd
        -- a missing child counts as the empty trie, which holds nothing
        have hchild : ((children.lookup d).getD empty).Holds u ↔
            ∃ t, children.lookup d = some t ∧ t.Holds u := by
          cases children.lookup d with
          | none => simp [not_holds_empty]
          | some t => simp
        simp only [↓reduceIte, Option.some.injEq, exists_eq_left', ih, hchild, List.cons.injEq,
          true_and]
      · simp [hd]

theorem holds_foldl_insert (texts : List Text) (t : Trie) (u : Text) :
    (texts.foldl insert t).Holds u ↔ u ∈ texts ∨ t.Holds u := by
  induction texts generalizing t with
  | nil => simp
  | cons w texts ih =>
    rw [List.foldl_cons, ih, holds_insert, List.mem_cons]
    tauto

/-- No node has two children under one key. -/
inductive Distinct : Trie → Prop
  | node {ends : Bool} {children : List (Char × Trie)} :
    (children.map Prod.fst).Nodup → (∀ x ∈ children, Distinct x.2) → Distinct (.node ends children)

theorem Distinct.child {ends : Bool} {children : List (Char × Trie)} {x : Char × Trie}
    (h : Distinct (.node ends children)) (hx : x ∈ children) : Distinct x.2 := by
  obtain ⟨-, hbelow⟩ := h
  exact hbelow x hx

theorem distinct_empty : Distinct empty := .node List.nodup_nil fun _ h => by cases h

theorem keys_adjust (c : Char) (f : Trie → Trie) (children : List (Char × Trie)) :
    (adjust c f children).map Prod.fst =
      if c ∈ children.map Prod.fst then children.map Prod.fst
      else children.map Prod.fst ++ [c] := by
  induction children with
  | nil => simp [adjust]
  | cons x rest ih =>
    obtain ⟨d, t⟩ := x
    by_cases hd : d = c
    · simp [adjust, hd]
    · have hcd : ¬ c = d := fun h => hd h.symm
      simp only [adjust, hd, ↓reduceIte, List.map_cons, ih, List.mem_cons, hcd, false_or]
      split <;> simp

theorem mem_adjust {c : Char} {f : Trie → Trie} {children : List (Char × Trie)} {x : Char × Trie}
    (h : x ∈ adjust c f children) :
    x ∈ children ∨ ∃ t, (t = empty ∨ (c, t) ∈ children) ∧ x = (c, f t) := by
  induction children with
  | nil => exact .inr ⟨empty, .inl rfl, List.mem_singleton.mp h⟩
  | cons y rest ih =>
    obtain ⟨d, t⟩ := y
    by_cases hd : d = c
    · subst hd
      simp only [adjust, ↓reduceIte, List.mem_cons] at h
      rcases h with rfl | h
      · exact .inr ⟨t, .inr List.mem_cons_self, rfl⟩
      · exact .inl (List.mem_cons_of_mem _ h)
    · simp only [adjust, hd, ↓reduceIte, List.mem_cons] at h
      rcases h with rfl | h
      · exact .inl List.mem_cons_self
      · rcases ih h with h | ⟨u, hu, rfl⟩
        · exact .inl (List.mem_cons_of_mem _ h)
        · exact .inr ⟨u, hu.imp_right (List.mem_cons_of_mem _), rfl⟩

theorem distinct_insert {t : Trie} (h : Distinct t) (word : Text) : Distinct (t.insert word) := by
  induction word generalizing t with
  | nil =>
    obtain ⟨hkeys, hbelow⟩ := h
    exact .node hkeys hbelow
  | cons c word ih =>
    obtain ⟨hkeys, hbelow⟩ := h
    refine .node ?_ ?_
    · rw [keys_adjust]
      split
      · exact hkeys
      · next hc => exact List.nodup_append'.mpr ⟨hkeys, List.nodup_singleton c, by simpa using hc⟩
    · intro x hx
      rcases mem_adjust hx with hx | ⟨u, hu, rfl⟩
      · exact hbelow x hx
      · rcases hu with rfl | hu
        · exact ih distinct_empty
        · exact ih (hbelow _ hu)

theorem distinct_foldl_insert (texts : List Text) {t : Trie} (h : Distinct t) :
    Distinct (texts.foldl insert t) :=
  List.foldlRecOn texts insert h fun _ ht word _ => distinct_insert ht word

end Backtrack.Trie
