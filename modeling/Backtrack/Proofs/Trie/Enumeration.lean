import Backtrack.Proofs.OrderedAlternation
import Backtrack.Proofs.Trie.Branches
import Mathlib.Data.List.Dedup

/-!
# Words and depth below a node

The words below a node are the rests of the texts along its path, each behind the stem that is asked
for. They come out in strictly descending order, so none comes out twice. As every branch ends in a
word, the longest path below a node is as long as the longest of these rests. Both hold at the root
in particular, where the rests are the texts themselves.
-/

namespace Backtrack.Trie

/-- Behind a longer stem the same words come out, each with the same text in front. -/
theorem spellings_append (t : Trie) (front stem : Text) :
    t.spellings (front ++ stem) = (t.spellings stem).map (front ++ ·) := by
  induction t generalizing stem with
  | node ends children ih =>
    have hbelow : spellingsBelow children (front ++ stem) =
        (spellingsBelow children stem).map (front ++ ·) := by
      rw [spellingsBelow_eq_flatMap, spellingsBelow_eq_flatMap, List.map_flatMap]
      refine List.flatMap_congr ?_
      intro x hx
      rw [List.append_assoc, ih x hx]
    rw [spellings, spellings, hbelow, List.map_append]
    cases ends <;> rfl

theorem words_eq_map (t : Trie) (stem : Text) : t.words stem = (t.words []).map (stem ++ ·) := by
  have happend := spellings_append t stem []
  rw [List.append_nil] at happend
  rw [words_eq_spellings, words_eq_spellings, happend]

/-- The greatest length of the texts with the property, and 0 if there are none. -/
structure GreatestLength (P : Text → Prop) (n : Nat) : Prop where
  le : ∀ w, P w → w.length ≤ n
  attained : (∃ w, P w) → ∃ w, P w ∧ w.length = n
  zero : (∀ w, ¬ P w) → n = 0

theorem height_lt_heightBelow {children : List (Char × Trie)} {x : Char × Trie}
    (hx : x ∈ children) : x.2.height < heightBelow children := by
  induction children with
  | nil => cases hx
  | cons y rest ih =>
    obtain ⟨c, t⟩ := y
    rw [heightBelow]
    rcases List.mem_cons.mp hx with rfl | hx
    · exact Nat.le_max_left _ _
    · exact Nat.lt_of_lt_of_le (ih hx) (Nat.le_max_right _ _)

theorem exists_highest {children : List (Char × Trie)} (h : children ≠ []) :
    ∃ x ∈ children, heightBelow children = x.2.height + 1 := by
  induction children with
  | nil => exact absurd rfl h
  | cons y rest ih =>
    obtain ⟨c, t⟩ := y
    rw [heightBelow]
    rcases Nat.le_total (heightBelow rest) (t.height + 1) with hle | hle
    · exact ⟨(c, t), List.mem_cons_self, Nat.max_eq_left hle⟩
    · have hrest : rest ≠ [] := by
        rintro rfl
        simp [heightBelow] at hle
      obtain ⟨x, hx, hheight⟩ := ih hrest
      exact ⟨x, List.mem_cons_of_mem _ hx, (Nat.max_eq_right hle).trans hheight⟩

theorem length_le_height {t node : Trie} {path : Text} (h : t.descend? path = some node) :
    path.length ≤ t.height := by
  induction path generalizing t with
  | nil => exact Nat.zero_le _
  | cons c path ih =>
    obtain ⟨ends, children⟩ := t
    rw [descend?_cons] at h
    obtain ⟨next, hnext, hpath⟩ := Option.bind_eq_some_iff.mp h
    have hlength := ih hpath
    have hheight := height_lt_heightBelow (mem_of_lookup hnext)
    rw [List.length_cons, height]
    exact Nat.lt_of_le_of_lt hlength hheight

/-- A longest path of a trie with fruitful branches spells a word. -/
theorem exists_holds_length_eq_height {t : Trie} (hdistinct : Distinct t) (hfruitful : Fruitful t)
    (h : ∃ word, t.Holds word) : ∃ word, t.Holds word ∧ word.length = t.height := by
  induction t with
  | node ends children ih =>
    by_cases hchildren : children = []
    · -- no path leads on, so the word is the empty one
      subst hchildren
      obtain ⟨word, node, hnode, hends⟩ := h
      exact ⟨word, ⟨node, hnode, hends⟩, Nat.le_antisymm (length_le_height hnode) (Nat.zero_le _)⟩
    · obtain ⟨x, hx, hheight⟩ := exists_highest hchildren
      obtain ⟨hwords, hbelow⟩ := hfruitful.child hx
      obtain ⟨word, hword, hlength⟩ := ih x hx (hdistinct.child hx) hbelow hwords
      refine ⟨x.1 :: word, (holds_child hdistinct hx word).mp hword, ?_⟩
      rw [List.length_cons, hlength, height, hheight]

/-- The depth of a trie with fruitful branches is the length of its longest word. -/
theorem greatestLength_depth {t : Trie} (hdistinct : Distinct t) (hfruitful : Fruitful t) :
    GreatestLength t.Holds t.depth := by
  rw [depth_eq_height]
  refine ⟨?_, exists_holds_length_eq_height hdistinct hfruitful, ?_⟩
  · rintro word ⟨node, hnode, -⟩
    exact length_le_height hnode
  · intro hnone
    obtain ⟨ends, children⟩ := t
    have hchildren : children = [] := by
      rw [List.eq_nil_iff_forall_not_mem]
      intro x hx
      obtain ⟨⟨word, hword⟩, -⟩ := hfruitful.child hx
      exact hnone (x.1 :: word) ((holds_child hdistinct hx word).mp hword)
    rw [hchildren]
    rfl

/-- The node at the end of a path holds the rests of the texts along the path. -/
theorem holds_descend_ofTexts {texts : List Text} {path : Text} {node : Trie}
    (h : (ofTexts texts).descend? path = some node) :
    node.Holds = fun rest => path ++ rest ∈ texts := by
  funext rest
  rw [holds_descend h, holds_ofTexts]

theorem listsFalling_below {texts : List Text} {path : Text} {node : Trie}
    (h : (ofTexts texts).descend? path = some node) :
    ListsFalling (fun rest => path ++ rest ∈ texts) (node.words []) := by
  rw [← holds_descend_ofTexts h]
  exact listsFalling_words ((falling_ofTexts texts).descend h)

theorem greatestLength_below {texts : List Text} {path : Text} {node : Trie}
    (h : (ofTexts texts).descend? path = some node) :
    GreatestLength (fun rest => path ++ rest ∈ texts) node.depth := by
  rw [← holds_descend_ofTexts h]
  exact greatestLength_depth ((falling_ofTexts texts).descend h).distinct
    ((fruitful_ofTexts texts).descend h)

/-- The words of the trie of some texts are as many as there are distinct texts. -/
theorem length_words_ofTexts (texts : List Text) :
    ((ofTexts texts).words []).length = texts.dedup.length := by
  have hwords := words_extensionsFirst texts
  refine ((List.perm_ext_iff_of_nodup hwords.nodup (List.nodup_dedup texts)).mpr ?_).length_eq
  intro w
  rw [hwords.mem_iff, List.mem_dedup]

/-- Building a trie records the length of its longest path and the number of its words. -/
theorem build_trie_events (words : List Literal) :
    (Grammar.trie (words.map Literal.written)).build.events =
      [.trieBuilt (ofTexts (words.map Literal.letters)).depth
        ((ofTexts (words.map Literal.letters)).words []).length] := by
  show (Parser.ofWords (words.map Literal.written)).events = _
  rw [Parser.ofWords, ofWords_literals]
  rfl

end Backtrack.Trie

namespace Backtrack

/-- The trie of some words enumerates the distinct ones of them in strictly descending order, and
its depth is the length of the longest. Below any node the same holds of what is left of the words
along the path, each behind the stem that is asked for. The event of the construction reports the
two numbers. -/
theorem trie_enumerates_words (words : List Literal) :
    ∃ root, Trie.ofWords (words.map Literal.written) = .ok root ∧
      Trie.ListsFalling (· ∈ words.map Literal.letters) (root.words []) ∧
      ExtensionsFirst (words.map Literal.letters) (root.words []) ∧
      Trie.GreatestLength (· ∈ words.map Literal.letters) root.depth ∧
      (∀ path node, root.descend? path = some node →
        (∃ rests,
          Trie.ListsFalling (fun rest => path ++ rest ∈ words.map Literal.letters) rests ∧
          ∀ stem, node.words stem = rests.map (stem ++ ·)) ∧
        Trie.GreatestLength (fun rest => path ++ rest ∈ words.map Literal.letters) node.depth) ∧
      (Grammar.trie (words.map Literal.written)).build.events.map Event.message =
        [s!"Built trie: depth {root.depth}, {(words.map Literal.letters).dedup.length} words"] := by
  have hroot : (Trie.ofTexts (words.map Literal.letters)).descend? [] =
      some (Trie.ofTexts (words.map Literal.letters)) := rfl
  refine ⟨_, Trie.ofWords_literals words, Trie.listsFalling_ofTexts _,
    words_extensionsFirst _, Trie.greatestLength_below hroot, ?_, ?_⟩
  · intro path node hnode
    exact ⟨⟨node.words [], Trie.listsFalling_below hnode, Trie.words_eq_map node⟩,
      Trie.greatestLength_below hnode⟩
  · rw [Trie.build_trie_events, Trie.length_words_ofTexts]
    rfl

end Backtrack
