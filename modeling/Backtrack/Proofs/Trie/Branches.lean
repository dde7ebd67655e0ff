import Backtrack.Proofs.Trie.Order

/-!
# Branches that bear words

Insertion opens a path only to end a word on it, so every child of a node leads to a word, and
arranging keeps that. Hence the paths inside the trie of some texts are the beginnings of these
texts. The empty path is the exception: it stays inside the trie of no texts, too.
-/

namespace Backtrack.Trie

theorem mem_of_lookup {ts : List (Char × Trie)} {c : Char} {t : Trie} (h : ts.lookup c = some t) :
    (c, t) ∈ ts := by
  obtain ⟨before, behind, rfl, -⟩ := List.lookup_eq_some_iff.mp h
  exact List.mem_append_cons_self

/-- What passes from a node to its children holds at the end of every path. -/
theorem descend?_invariant {P : Trie → Prop}
    (hchild : ∀ ends children, P (.node ends children) → ∀ x ∈ children, P x.2)
    {t node : Trie} {path : Text} (ht : P t) (h : t.descend? path = some node) : P node := by
  induction path generalizing t with
  | nil =>
    cases h
    exact ht
  | cons c path ih =>
    obtain ⟨ends, children⟩ := t
    rw [descend?_cons] at h
    obtain ⟨next, hnext, hpath⟩ := Option.bind_eq_some_iff.mp h
    exact ih (hchild ends children ht _ (mem_of_lookup hnext)) hpath

theorem Falling.descend {t node : Trie} {path : Text} (h : Falling t)
    (hnode : t.descend? path = some node) : Falling node :=
  descend?_invariant (fun _ _ ht _ => ht.child) h hnode

/-- The node at the end of a path holds what is left of the words along the path. -/
theorem holds_descend {t node : Trie} {path : Text} (h : t.descend? path = some node)
    (word : Text) : node.Holds word ↔ t.Holds (path ++ word) := by
  rw [Holds, Holds, descend?_append, h, Option.bind_some]

/-- A word that begins with a path keeps the path inside the trie. -/
theorem Holds.descend?_isSome {t : Trie} {path word : Text} (h : t.Holds word)
    (hpath : path <+: word) : (t.descend? path).isSome = true := by
  obtain ⟨rest, rfl⟩ := hpath
  obtain ⟨last, hlast, -⟩ := h
  rw [descend?_append] at hlast
  obtain ⟨node, hnode, -⟩ := Option.bind_eq_some_iff.mp hlast
  exact Option.isSome_iff_exists.mpr ⟨node, hnode⟩

/-- Looking up a child finds the one that is stored beside the key. -/
theorem child?_eq_some {t : Trie} (h : Distinct t) {key : Text} {next : Trie} :
    t.child? key = some next ↔ ∃ c, key = [c] ∧ (c, next) ∈ t.children := by
  obtain ⟨hkeys, -⟩ := h
  constructor
  · intro hkey
    match key, hkey with
    | [c], hkey => exact ⟨c, rfl, mem_of_lookup hkey⟩
  · rintro ⟨c, rfl, hmem⟩
    exact (lookup_eq_some_iff_mem hkeys).mpr hmem

/-- A child holds what is left of the words behind its key. -/
theorem holds_child {ends : Bool} {children : List (Char × Trie)} {x : Char × Trie}
    (h : Distinct (.node ends children)) (hx : x ∈ children) (word : Text) :
    x.2.Holds word ↔ (Trie.node ends children).Holds (x.1 :: word) := by
  have hchild : (Trie.node ends children).child? [x.1] = some x.2 :=
    (child?_eq_some h).mpr ⟨x.1, rfl, hx⟩
  have hpath : (Trie.node ends children).descend? [x.1] = some x.2 := by
    simp only [descend?, hchild]
  exact holds_descend hpath word

/-- Every child holds a word. -/
inductive Fruitful : Trie → Prop
  | node {ends : Bool} {children : List (Char × Trie)} :
    (∀ x ∈ children, ∃ word, x.2.Holds word) → (∀ x ∈ children, Fruitful x.2) →
    Fruitful (.node ends children)

theorem fruitful_empty : Fruitful empty :=
  .node (fun _ h => by cases h) fun _ h => by cases h

theorem Fruitful.child {ends : Bool} {children : List (Char × Trie)} {x : Char × Trie}
    (h : Fruitful (.node ends children)) (hx : x ∈ children) :
    (∃ word, x.2.Holds word) ∧ Fruitful x.2 := by
  obtain ⟨hwords, hbelow⟩ := h
  exact ⟨hwords x hx, hbelow x hx⟩

theorem Fruitful.descend {t node : Trie} {path : Text} (h : Fruitful t)
    (hnode : t.descend? path = some node) : Fruitful node :=
  descend?_invariant (fun _ _ ht _ hx => (ht.child hx).2) h hnode

theorem fruitful_insert {t : Trie} (h : Fruitful t) (word : Text) : Fruitful (t.insert word) := by
  induction word generalizing t with
  | nil =>
    obtain ⟨hwords, hbelow⟩ := h
    exact .node hwords hbelow
  | cons c word ih =>
    obtain ⟨hwords, hbelow⟩ := h
    refine .node ?_ ?_
    · intro x hx
      rcases mem_adjust hx with hx | ⟨u, -, rfl⟩
      · exact hwords x hx
      · exact ⟨word, (holds_insert u word word).mpr (.inl rfl)⟩
    · intro x hx
      rcases mem_adjust hx with hx | ⟨u, hu, rfl⟩
      · exact hbelow x hx
      · rcases hu with rfl | hu
        · exact ih fruitful_empty
        · exact ih (hbelow _ hu)

theorem fruitful_foldl_insert (texts : List Text) {t : Trie} (h : Fruitful t) :
    Fruitful (texts.foldl insert t) :=
  List.foldlRecOn texts insert h fun _ ht word _ => fruitful_insert ht word

theorem fruitful_sorted {t : Trie} (hdistinct : Distinct t) (h : Fruitful t) :
    Fruitful (sorted t) := by
  induction t with
  | node ends children ih =>
    obtain ⟨-, hdistinct⟩ := hdistinct
    obtain ⟨hwords, hbelow⟩ := h
    have harranged : ∀ x ∈ descending (sortedAll children), ∃ y ∈ children, x.2 = sorted y.2 := by
      intro x hx
      rw [mem_descending, sortedAll_eq_map] at hx
      obtain ⟨y, hy, rfl⟩ := List.mem_map.mp hx
      exact ⟨y, hy, rfl⟩
    refine .node ?_ ?_
    · intro x hx
      obtain ⟨y, hy, hxy⟩ := harranged x hx
      obtain ⟨word, hword⟩ := hwords y hy
      exact ⟨word, hxy ▸ (holds_sorted (hdistinct y hy) word).mpr hword⟩
    · intro x hx
      obtain ⟨y, hy, hxy⟩ := harranged x hx
      exact hxy ▸ ih y hy (hdistinct y hy) (hbelow y hy)

theorem fruitful_ofTexts (texts : List Text) : Fruitful (ofTexts texts) := by
  rw [ofTexts_eq_sorted]
  exact fruitful_sorted (distinct_foldl_insert texts distinct_empty)
    (fruitful_foldl_insert texts fruitful_empty)

/-- A path of one character or more ends at a node with a word. -/
theorem Fruitful.exists_holds {t node : Trie} {path : Text} (h : Fruitful t) (hpath : path ≠ [])
    (hnode : t.descend? path = some node) : ∃ word, node.Holds word := by
  obtain ⟨front, c, rfl⟩ := (List.eq_nil_or_concat' path).resolve_left hpath
  rw [descend?_append] at hnode
  obtain ⟨parent, hparent, hlast⟩ := Option.bind_eq_some_iff.mp hnode
  obtain ⟨ends, children⟩ := parent
  rw [descend?_cons] at hlast
  obtain ⟨child, hchild, hnode⟩ := Option.bind_eq_some_iff.mp hlast
  cases hnode
  exact ((h.descend hparent).child (mem_of_lookup hchild)).1

/-- A path stays inside the trie of some texts exactly if it is empty or begins one of the texts. -/
theorem descend?_ofTexts_isSome (texts : List Text) (path : Text) :
    ((ofTexts texts).descend? path).isSome = true ↔ path = [] ∨ ∃ text ∈ texts, path <+: text := by
  constructor
  · intro h
    by_cases hpath : path = []
    · exact .inl hpath
    · obtain ⟨node, hnode⟩ := Option.isSome_iff_exists.mp h
      obtain ⟨rest, hrest⟩ := (fruitful_ofTexts texts).exists_holds hpath hnode
      rw [holds_descend hnode, holds_ofTexts] at hrest
      exact .inr ⟨path ++ rest, hrest, List.prefix_append path rest⟩
  · rintro (rfl | ⟨text, htext, hprefix⟩)
    · rfl
    · exact ((holds_ofTexts texts text).mpr htext).descend?_isSome hprefix

/-- The node at the end of a path ends a word exactly if the path is one of the texts. -/
theorem ends_of_descend?_ofTexts {texts : List Text} {path : Text} {node : Trie}
    (h : (ofTexts texts).descend? path = some node) : node.ends = true ↔ path ∈ texts := by
  rw [← holds_ofTexts, Holds, h]
  constructor
  · intro he
    exact ⟨node, rfl, he⟩
  · rintro ⟨_, hnode, he⟩
    cases hnode
    exact he

end Backtrack.Trie

namespace Backtrack

/-- A path stays inside the trie of some words exactly if it is empty or begins one of the words,
and the node that it leads to ends a word exactly if the path is one of them. -/
theorem trie_lookup_is_prefix_membership (words : List Literal) :
    ∃ root, Trie.ofWords (words.map Literal.written) = .ok root ∧
      ∀ path,
        ((root.descend? path).isSome = true ↔
          path = [] ∨ ∃ word ∈ words.map Literal.letters, path <+: word) ∧
        ∀ node, root.descend? path = some node →
          (node.ends = true ↔ path ∈ words.map Literal.letters) := by
  refine ⟨_, Trie.ofWords_literals words, ?_⟩
  intro path
  refine ⟨Trie.descend?_ofTexts_isSome _ path, ?_⟩
  intro node hnode
  exact Trie.ends_of_descend?_ofTexts hnode

end Backtrack
