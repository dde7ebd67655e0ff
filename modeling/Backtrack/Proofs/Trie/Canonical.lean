import Backtrack.Proofs.Trie.Branches

/-!
# One trie for each set of words

The keys of an arranged trie fall and its branches bear words, and these two facts leave no choice:
two such tries that hold the same words are equal node for node. So the trie of some words keeps no
trace of their order, of repetitions, or of the form that their characters were given in.
-/

namespace Backtrack.Trie

section SameWords

variable {ends ends' : Bool} {children children' : List (Char × Trie)}

/-- A child that bears a word has a counterpart in every trie that holds the same words. -/
theorem exists_counterpart (hdistinct : Distinct (.node ends children))
    (hfruitful : Fruitful (.node ends children))
    (h : ∀ word, (Trie.node ends children).Holds word → (Trie.node ends' children').Holds word)
    {x : Char × Trie} (hx : x ∈ children) : ∃ y ∈ children', x.1 = y.1 := by
  obtain ⟨⟨word, hword⟩, -⟩ := hfruitful.child hx
  have hheld := h (x.1 :: word) ((holds_child hdistinct hx word).mp hword)
  obtain ⟨next, hnext, -⟩ := (holds_cons ends' children' x.1 word).mp hheld
  exact ⟨(x.1, next), mem_of_lookup hnext, rfl⟩

/-- Children in falling order are determined by which ones there are. -/
theorem children_eq_of_mem_iff
    (h : (children.map Prod.fst).Pairwise fun c d => d < c)
    (h' : (children'.map Prod.fst).Pairwise fun c d => d < c)
    (hmem : ∀ x, x ∈ children ↔ x ∈ children') : children = children' := by
  have hnodup : children.Nodup :=
    .of_map Prod.fst (h.imp fun hlt => (ne_of_lt hlt).symm)
  have hnodup' : children'.Nodup :=
    .of_map Prod.fst (h'.imp fun hlt => (ne_of_lt hlt).symm)
  have hperm : children.Perm children' := (List.perm_ext_iff_of_nodup hnodup hnodup').mpr hmem
  refine hperm.eq_of_pairwise ?_ (List.pairwise_map.mp h) (List.pairwise_map.mp h')
  intro x y _ _ hxy hyx
  exact absurd hyx (lt_asymm hxy)

end SameWords

/-- Tries with falling keys and fruitful branches are equal if they hold the same words. -/
theorem eq_of_holds_iff {t u : Trie} (ht : Falling t) (hu : Falling u) (hft : Fruitful t)
    (hfu : Fruitful u) (h : ∀ word, t.Holds word ↔ u.Holds word) : t = u := by
  induction t generalizing u with
  | node ends children ih =>
    obtain ⟨ends', children'⟩ := u
    have hends : ends = ends' := by
      have hempty := h []
      rw [holds_nil, holds_nil] at hempty
      exact Bool.eq_iff_iff.mpr hempty
    -- children under one key hold the same words, so they are equal by induction
    have hsame : ∀ x ∈ children, ∀ y ∈ children', x.1 = y.1 → x = y := by
      intro x hx y hy hkey
      have hwords : ∀ word, x.2.Holds word ↔ y.2.Holds word := by
        intro word
        rw [holds_child ht.distinct hx, holds_child hu.distinct hy, hkey]
        exact h (y.1 :: word)
      exact Prod.ext hkey
        (ih x hx (ht.child hx) (hu.child hy) (hft.child hx).2 (hfu.child hy).2 hwords)
    have hmem : ∀ x, x ∈ children ↔ x ∈ children' := by
      intro x
      constructor
      · intro hx
        obtain ⟨y, hy, hkey⟩ := exists_counterpart ht.distinct hft (fun w => (h w).mp) hx
        exact hsame x hx y hy hkey ▸ hy
      · intro hx
        obtain ⟨y, hy, hkey⟩ := exists_counterpart hu.distinct hfu (fun w => (h w).mpr) hx
        exact hsame y hy x hx hkey.symm ▸ hy
    obtain ⟨hkeys, -⟩ := ht
    obtain ⟨hkeys', -⟩ := hu
    rw [hends, children_eq_of_mem_iff hkeys hkeys' hmem]

/-- The tries of two lists of texts are equal exactly if the lists have the same members. -/
theorem ofTexts_eq_iff (texts texts' : List Text) :
    ofTexts texts = ofTexts texts' ↔ ∀ text, text ∈ texts ↔ text ∈ texts' := by
  constructor
  · intro h text
    rw [← holds_ofTexts texts, ← holds_ofTexts texts', h]
  · intro h
    refine eq_of_holds_iff (falling_ofTexts texts) (falling_ofTexts texts')
      (fruitful_ofTexts texts) (fruitful_ofTexts texts') ?_
    intro word
    rw [holds_ofTexts, holds_ofTexts]
    exact h word

theorem mem_nodesBelow {children : List (Char × Trie)} {stem : Text} {entry : Text × Trie} :
    entry ∈ nodesBelow children stem ↔ ∃ x ∈ children, entry ∈ x.2.nodes (stem ++ [x.1]) := by
  induction children with
  | nil => simp [nodesBelow]
  | cons x rest ih =>
    obtain ⟨c, t⟩ := x
    simp [nodesBelow, ih]

/-- The nodes behind `stem` are those at the ends of paths. -/
theorem mem_nodes {t : Trie} (h : Distinct t) (stem path : Text) (node : Trie) :
    (path, node) ∈ t.nodes stem ↔ ∃ below, path = stem ++ below ∧ t.descend? below = some node := by
  induction t generalizing stem with
  | node ends children ih =>
    obtain ⟨hkeys, hbelow⟩ := h
    rw [nodes, List.mem_cons, mem_nodesBelow]
    constructor
    · rintro (heq | ⟨x, hx, hmem⟩)
      · cases heq
        exact ⟨[], (List.append_nil _).symm, rfl⟩
      · obtain ⟨below, rfl, hnode⟩ := (ih x hx (hbelow x hx) _).mp hmem
        refine ⟨x.1 :: below, by simp, ?_⟩
        rw [descend?_cons, (lookup_eq_some_iff_mem hkeys).mpr hx]
        exact hnode
    · rintro ⟨below, rfl, hnode⟩
      cases below with
      | nil =>
        cases hnode
        exact .inl (by rw [List.append_nil])
      | cons c below =>
        rw [descend?_cons] at hnode
        obtain ⟨next, hnext, hnode⟩ := Option.bind_eq_some_iff.mp hnode
        have hmem := mem_of_lookup hnext
        exact .inr ⟨(c, next), hmem, (ih _ hmem (hbelow _ hmem) _).mpr ⟨below, by simp, hnode⟩⟩

/-- The nodes of a trie are those at the ends of its paths. -/
theorem mem_nodes_nil {t : Trie} (h : Distinct t) (path : Text) (node : Trie) :
    (path, node) ∈ t.nodes [] ↔ t.descend? path = some node := by
  simp only [mem_nodes h, List.nil_append, exists_eq_left']

/-- Every node of the trie of some texts leads to the end of a text, unless it is the root and there
are no texts. -/
theorem exists_end_below {texts : List Text} {path : Text} {node : Trie}
    (hnode : (ofTexts texts).descend? path = some node) (hsome : path ≠ [] ∨ texts ≠ []) :
    ∃ entry ∈ node.nodes [], entry.2.ends = true := by
  have hword : ∃ word, node.Holds word := by
    by_cases hpath : path = []
    · subst hpath
      cases hnode
      obtain ⟨text, htext⟩ := List.exists_mem_of_ne_nil texts (hsome.resolve_left (by simp))
      exact ⟨text, (holds_ofTexts texts text).mpr htext⟩
    · exact (fruitful_ofTexts texts).exists_holds hpath hnode
  obtain ⟨word, last, hlast, hends⟩ := hword
  have hdistinct := ((falling_ofTexts texts).descend hnode).distinct
  exact ⟨(word, last), (mem_nodes_nil hdistinct word last).mpr hlast, hends⟩

end Backtrack.Trie

namespace Backtrack

/-- The tries of two lists of words are equal node for node exactly if the lists spell the same
texts. In such a trie the keys of every node fall, its children are found under their keys, and a
word ends at it or below, unless there are no words at all. -/
theorem trie_is_canonical (words words' : List Literal) :
    ∃ root root', Trie.ofWords (words.map Literal.written) = .ok root ∧
      Trie.ofWords (words'.map Literal.written) = .ok root' ∧
      (root = root' ↔
        ∀ text, text ∈ words.map Literal.letters ↔ text ∈ words'.map Literal.letters) ∧
      ∀ path node, (path, node) ∈ root.nodes [] →
        (node.children.map Prod.fst).Pairwise (fun earlier later => later < earlier) ∧
        (∀ key next, node.child? key = some next ↔ ∃ c, key = [c] ∧ (c, next) ∈ node.children) ∧
        (path ≠ [] ∨ words ≠ [] → ∃ entry ∈ node.nodes [], entry.2.ends = true) := by
  refine ⟨_, _, Trie.ofWords_literals words, Trie.ofWords_literals words',
    Trie.ofTexts_eq_iff _ _, ?_⟩
  intro path node hmem
  have hfalling := Trie.falling_ofTexts (words.map Literal.letters)
  have hnode := (Trie.mem_nodes_nil hfalling.distinct path node).mp hmem
  have hfalls := hfalling.descend hnode
  refine ⟨?_, ?_, ?_⟩
  · obtain ⟨hkeys, -⟩ := hfalls
    exact hkeys
  · intro key next
    exact Trie.child?_eq_some hfalls.distinct
  · intro hsome
    exact Trie.exists_end_below hnode (hsome.imp_right (by simp))

end Backtrack
