import Backtrack.Proofs.Trie.Arranged
import Backtrack.Trie.Loop
import Mathlib.Data.Char

/-!
# The order of the words

The keys of an arranged node fall, and the word that ends at a node comes behind the words of its
children. So the words of an arranged trie come out in strictly descending order, and a word never
comes before one that extends it.
-/

namespace Backtrack.Trie

/-- The keys of every node are in strictly descending order. -/
inductive Falling : Trie → Prop
  | node {ends : Bool} {children : List (Char × Trie)} :
    (children.map Prod.fst).Pairwise (fun c d => d < c) → (∀ x ∈ children, Falling x.2) →
    Falling (.node ends children)

theorem Falling.distinct {t : Trie} (h : Falling t) : Distinct t := by
  induction t with
  | node ends children ih =>
    obtain ⟨hkeys, hbelow⟩ := h
    refine .node (hkeys.imp fun hlt => (ne_of_lt hlt).symm) ?_
    intro x hx
    exact ih x hx (hbelow x hx)

theorem Falling.child {ends : Bool} {children : List (Char × Trie)} {x : Char × Trie}
    (h : Falling (.node ends children)) (hx : x ∈ children) : Falling x.2 := by
  obtain ⟨-, hbelow⟩ := h
  exact hbelow x hx

theorem insertDescending_keys {x : Char × Trie} {ts : List (Char × Trie)}
    (hfresh : x.1 ∉ ts.map Prod.fst) (h : (ts.map Prod.fst).Pairwise fun c d => d < c) :
    ((insertDescending x ts).map Prod.fst).Pairwise fun c d => d < c := by
  induction ts with
  | nil => exact List.pairwise_singleton _ _
  | cons y rest ih =>
    obtain ⟨hy, hrest⟩ := List.pairwise_cons.mp h
    obtain ⟨hne, hfresh⟩ := not_or.mp (List.mem_cons.not.mp hfresh)
    rw [insertDescending]
    split
    · next hlt =>
      refine List.pairwise_cons.mpr ⟨?_, h⟩
      intro d hd
      rcases List.mem_cons.mp hd with rfl | hd
      · exact hlt
      · exact lt_trans (hy d hd) hlt
    · next hnot =>
      have hlt : x.1 < y.1 := lt_of_le_of_ne (not_lt.mp hnot) hne
      refine List.pairwise_cons.mpr ⟨?_, ih hfresh hrest⟩
      intro d hd
      have hperm := (insertDescending_perm x rest).map Prod.fst
      rcases List.mem_cons.mp (hperm.mem_iff.mp hd) with rfl | hd
      · exact hlt
      · exact hy d hd

theorem descending_keys {ts : List (Char × Trie)} (h : (ts.map Prod.fst).Nodup) :
    ((descending ts).map Prod.fst).Pairwise fun c d => d < c := by
  induction ts with
  | nil => exact List.Pairwise.nil
  | cons x rest ih =>
    obtain ⟨hx, hrest⟩ := List.nodup_cons.mp h
    have hperm := (descending_perm rest).map Prod.fst
    exact insertDescending_keys (fun hm => hx (hperm.mem_iff.mp hm)) (ih hrest)

theorem falling_sorted {t : Trie} (h : Distinct t) : Falling (sorted t) := by
  induction t with
  | node ends children ih =>
    obtain ⟨hkeys, hbelow⟩ := h
    refine .node (descending_keys (by rw [keys_sortedAll]; exact hkeys)) ?_
    intro x hx
    rw [mem_descending, sortedAll_eq_map] at hx
    obtain ⟨y, hy, rfl⟩ := List.mem_map.mp hx
    exact ih y hy (hbelow y hy)

theorem falling_ofTexts (texts : List Text) : Falling (ofTexts texts) := by
  rw [ofTexts_eq_sorted]
  exact falling_sorted (distinct_foldl_insert texts distinct_empty)

theorem spellingsBelow_eq_flatMap (children : List (Char × Trie)) (stem : Text) :
    spellingsBelow children stem = children.flatMap fun x => x.2.spellings (stem ++ [x.1]) := by
  induction children with
  | nil => rfl
  | cons x rest ih =>
    obtain ⟨c, t⟩ := x
    rw [spellingsBelow, ih, List.flatMap_cons]

theorem mem_spellingsBelow {children : List (Char × Trie)} {stem w : Text} :
    w ∈ spellingsBelow children stem ↔ ∃ x ∈ children, w ∈ x.2.spellings (stem ++ [x.1]) := by
  rw [spellingsBelow_eq_flatMap, List.mem_flatMap]

/-- The words behind `stem` are those that the trie holds. -/
theorem mem_spellings {t : Trie} (h : Distinct t) (stem w : Text) :
    w ∈ t.spellings stem ↔ ∃ v, w = stem ++ v ∧ t.Holds v := by
  induction t generalizing stem w with
  | node ends children ih =>
    obtain ⟨hkeys, hbelow⟩ := h
    rw [spellings, List.mem_append, mem_spellingsBelow]
    constructor
    · rintro (⟨x, hx, hw⟩ | hw)
      · obtain ⟨v, rfl, hv⟩ := (ih x hx (hbelow x hx) _ _).mp hw
        refine ⟨x.1 :: v, by simp, ?_⟩
        exact (holds_cons ends children x.1 v).mpr ⟨x.2, (lookup_eq_some_iff_mem hkeys).mpr hx, hv⟩
      · cases ends with
        | false => cases hw
        | true =>
          refine ⟨[], ?_, (holds_nil true children).mpr rfl⟩
          rw [List.append_nil]
          exact List.mem_singleton.mp hw
    · rintro ⟨v, rfl, hv⟩
      cases v with
      | nil =>
        right
        rw [if_pos ((holds_nil ends children).mp hv)]
        simp
      | cons c v =>
        left
        obtain ⟨t, ht, hv⟩ := (holds_cons ends children c v).mp hv
        have hmem := (lookup_eq_some_iff_mem hkeys).mp ht
        refine ⟨(c, t), hmem, (ih (c, t) hmem (hbelow _ hmem) _ _).mpr ⟨v, by simp, hv⟩⟩

/-- The words of an arranged trie come out in strictly descending order. -/
theorem spellings_falling {t : Trie} (h : Falling t) (stem : Text) :
    (t.spellings stem).Pairwise fun a b => b < a := by
  induction t generalizing stem with
  | node ends children ih =>
    have hdistinct := h.distinct
    obtain ⟨hkeys, hbelow⟩ := h
    have hwords : ∀ x ∈ children, ∀ w ∈ x.2.spellings (stem ++ [x.1]), ∃ v, w = stem ++ x.1 :: v := by
      intro x hx w hw
      obtain ⟨v, rfl, -⟩ := (mem_spellings (hbelow x hx).distinct _ _).mp hw
      exact ⟨v, by simp⟩
    -- words of different children differ first at the key
    have hchildren : ∀ ts : List (Char × Trie), (∀ x ∈ ts, x ∈ children) →
        (ts.map Prod.fst).Pairwise (fun c d => d < c) →
        (spellingsBelow ts stem).Pairwise fun a b => b < a := by
      intro ts
      induction ts with
      | nil => intro _ _; exact List.Pairwise.nil
      | cons x rest ihr =>
        intro hsub hfalls
        obtain ⟨c, t⟩ := x
        obtain ⟨hc, hfalls⟩ := List.pairwise_cons.mp hfalls
        have hx := hsub (c, t) List.mem_cons_self
        have hrest : ∀ y ∈ rest, y ∈ children := fun y hy => hsub y (List.mem_cons_of_mem _ hy)
        refine List.pairwise_append.mpr ⟨ih (c, t) hx (hbelow _ hx) _, ihr hrest hfalls, ?_⟩
        intro a ha b hb
        obtain ⟨v, rfl⟩ := hwords (c, t) hx a ha
        obtain ⟨y, hy, hb⟩ := mem_spellingsBelow.mp hb
        obtain ⟨u, rfl⟩ := hwords y (hrest y hy) b hb
        exact List.append_left_lt (List.cons_lt_cons_iff.mpr (.inl (hc y.1 (List.mem_map_of_mem hy))))
    rw [spellings]
    refine List.pairwise_append.mpr ⟨hchildren children (fun _ hx => hx) hkeys, ?_, ?_⟩
    · split
      · exact List.pairwise_singleton _ _
      · exact List.Pairwise.nil
    · intro a ha b hb
      obtain ⟨x, hx, ha⟩ := mem_spellingsBelow.mp ha
      obtain ⟨v, rfl⟩ := hwords x hx a ha
      have hbstem : b = stem := by
        split at hb
        · exact List.mem_singleton.mp hb
        · cases hb
      have hlt : stem ++ [] < stem ++ x.1 :: v := List.append_left_lt (List.nil_lt_cons x.1 v)
      rw [List.append_nil] at hlt
      rw [hbstem]
      exact hlt

/-- The members of the list are the texts with the property, each once and in strictly descending
order. -/
structure ListsFalling (P : Text → Prop) (ws : List Text) : Prop where
  mem_iff : ∀ w, w ∈ ws ↔ P w
  falls : ws.Pairwise fun earlier later => later < earlier

theorem listsFalling_words {t : Trie} (h : Falling t) : ListsFalling t.Holds (t.words []) := by
  rw [words_eq_spellings]
  refine ⟨?_, spellings_falling h []⟩
  intro w
  rw [mem_spellings h.distinct]
  simp

/-- The words of the trie of some texts are these texts. -/
theorem listsFalling_ofTexts (texts : List Text) :
    ListsFalling (· ∈ texts) ((ofTexts texts).words []) := by
  have hheld : (ofTexts texts).Holds = (· ∈ texts) :=
    funext fun word => propext (holds_ofTexts texts word)
  exact hheld ▸ listsFalling_words (falling_ofTexts texts)

end Backtrack.Trie
