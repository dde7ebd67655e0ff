import Backtrack.Proofs.Building
import Backtrack.Proofs.Literal
import Backtrack.Proofs.Trie.LongestMatch
import Backtrack.Proofs.Trie.Order

/-!
# A trie is an ordered choice of literals

If every word stands behind the words that extend it, the first word of a choice that the source
reads is the longest one. So a trie and the choice between the literals of its words, in such an
order, give the same answers. The trie's own enumeration of its words is such an order.
-/

namespace Backtrack

open Trie (ofTexts ofWords_literals)

/-- The distinct members of `texts`, each behind all of its proper extensions. -/
structure ExtensionsFirst (texts ws : List Text) : Prop where
  mem_iff : ∀ w, w ∈ ws ↔ w ∈ texts
  nodup : ws.Nodup
  order : ws.Pairwise fun earlier later => ¬ (earlier <+: later ∧ earlier ≠ later)

/-- A text comes before its proper prefixes in descending order. -/
theorem extensionsFirst_of_falling {texts ws : List Text}
    (h : Trie.ListsFalling (· ∈ texts) ws) : ExtensionsFirst texts ws := by
  refine ⟨h.mem_iff, h.falls.imp ?_, h.falls.imp ?_⟩
  · intro a b hlt he
    subst he
    exact List.lt_irrefl a hlt
  · intro a b hlt ⟨hpre, _⟩
    exact hpre.le hlt

theorem words_extensionsFirst (texts : List Text) :
    ExtensionsFirst texts ((ofTexts texts).words []) :=
  extensionsFirst_of_falling (Trie.listsFalling_ofTexts texts)

namespace Runner

variable {src : Sequence}

/-- The choice takes a word that all other words in the source are prefixes of, since these come
later and are not extensions. -/
theorem choiceFrom_literals {ws : List Text} {pos : Int} (h : -(src.length : Int) ≤ pos)
    (hnodup : ws.Nodup)
    (horder : ws.Pairwise fun earlier later => ¬ (earlier <+: later ∧ earlier ≠ later)) :
    ∀ notes : List Note,
    (∃ w ∈ ws, src.Reads pos w ∧ (∀ u ∈ ws, src.Reads pos u → u <+: w) ∧
      choiceFrom pos (ws.map fun w => literal src (.ofText w)) notes =
        ⟨.success (.spanning (some "string") pos (pos + w.length) (.text w)), pos + w.length⟩) ∨
    ((∀ u ∈ ws, ¬ src.Reads pos u) ∧ ∃ notes',
      choiceFrom pos (ws.map fun w => literal src (.ofText w)) notes =
        ⟨.failure { pos, cause := .plain Failure.noAlternative, notes := notes' }, pos⟩) := by
  induction ws with
  | nil =>
    intro notes
    exact .inr ⟨by simp, notes, rfl⟩
  | cons w ws ih =>
    intro notes
    obtain ⟨hnew, hnodup⟩ := List.nodup_cons.mp hnodup
    obtain ⟨hw, horder⟩ := List.pairwise_cons.mp horder
    rw [List.map_cons]
    by_cases hreads : src.Reads pos w
    · refine .inl ⟨w, List.mem_cons_self, hreads, ?_, ?_⟩
      · intro u hu hread
        rcases List.mem_cons.mp hu with rfl | hu
        · exact List.prefix_refl u
        rcases Nat.le_total u.length w.length with hle | hle
        · exact hread.prefix_of_le hreads hle
        · have hne : w ≠ u := fun he => hnew (he ▸ hu)
          exact absurd ⟨hreads.prefix_of_le hread hle, hne⟩ (hw u hu)
      · exact choiceFrom_success (literal_ofText_of_reads h hreads)
    · obtain ⟨f, hf⟩ := literal_ofText_of_not_reads h hreads
      rw [choiceFrom_unmoved hf]
      rcases ih hnodup horder (f.toNote :: notes) with
        ⟨v, hv, hread, hlongest, hrun⟩ | ⟨hnone, hrun⟩
      · refine .inl ⟨v, List.mem_cons_of_mem _ hv, hread, ?_, hrun⟩
        intro u hu hu_reads
        rcases List.mem_cons.mp hu with rfl | hu
        · exact absurd hu_reads hreads
        · exact hlongest u hu hu_reads
      · refine .inr ⟨?_, hrun⟩
        intro u hu
        rcases List.mem_cons.mp hu with rfl | hu
        · exact hreads
        · exact hnone u hu

end Runner

theorem build_choice_texts (ws : List Text) :
    (Grammar.choice (ws.map fun w => .string (.text w))).build.result =
      .ok (.choice (ws.map fun w => .literal (.ofText w))) :=
  Grammar.build_choice_eq_ok.mpr ⟨_, Grammar.builds_map fun _ _ => rfl, rfl⟩

/-- A trie of words and the choice between them, extensions first, agree on every source from every
position that is not before the first item. -/
theorem trie_refines_ordered_choice (words : List Literal) :
    ∃ root, Trie.ofWords (words.map Literal.written) = .ok root ∧
      ExtensionsFirst (words.map Literal.letters) (root.words []) ∧
      ∀ ws, ExtensionsFirst (words.map Literal.letters) ws →
        ∃ p q, (Grammar.trie (words.map Literal.written)).build.result = .ok p ∧
          (Grammar.choice (ws.map fun w => .string (.text w))).build.result = .ok q ∧
          ∀ (src : Sequence) (pos : Int), -(src.length : Int) ≤ pos →
            (∃ (text : Text) (stop : Int),
              p.run src pos =
                ⟨.success (.spanning (some "trie") pos stop (.text text)), stop⟩ ∧
              q.run src pos =
                ⟨.success (.spanning (some "string") pos stop (.text text)), stop⟩) ∨
            (∃ notes notes',
              p.run src pos =
                ⟨.failure { pos, cause := .plain "No alternative matched.", notes }, pos⟩ ∧
              q.run src pos =
                ⟨.failure { pos, cause := .plain "No alternative matched.", notes := notes' },
                  pos⟩) := by
  refine ⟨_, ofWords_literals words, words_extensionsFirst _, ?_⟩
  intro ws hws
  refine ⟨_, _, build_trie words, build_choice_texts ws, ?_⟩
  intro src pos hpos
  have hchoice : (Parser.choice (ws.map fun w => .literal (.ofText w))).run src pos =
      Runner.choiceFrom pos (ws.map fun w => .literal src (.ofText w)) [] := by
    rw [Parser.run_choice, List.map_map]
    rfl
  have hheld : ∀ w, (ofTexts (words.map Literal.letters)).Holds w ↔ w ∈ ws := fun w =>
    (Trie.holds_ofTexts _ w).trans (hws.mem_iff w).symm
  rw [hchoice, Parser.run]
  rcases Runner.trie_run (ofTexts (words.map Literal.letters)) hpos with
    ⟨w, hw, hreads, hlongest, hrun⟩ | ⟨hnone, hrun⟩
  · rcases Runner.choiceFrom_literals hpos hws.nodup hws.order [] with
      ⟨v, hv, hv_reads, hv_longest, hv_run⟩ | ⟨hv_none, _⟩
    · -- each is a prefix of the other
      have hvw : v <+: w := hlongest v ((hheld v).mpr hv) hv_reads
      have hwv : w <+: v := hv_longest w ((hheld w).mp hw) hreads
      have heq : v = w := hvw.eq_of_length (Nat.le_antisymm hvw.length_le hwv.length_le)
      subst heq
      exact .inl ⟨v, _, hrun, hv_run⟩
    · exact absurd hreads (hv_none w ((hheld w).mp hw))
  · rcases Runner.choiceFrom_literals hpos hws.nodup hws.order [] with
      ⟨v, hv, hv_reads, _⟩ | ⟨_, notes, hv_run⟩
    · exact absurd hv_reads (hnone v ((hheld v).mpr hv))
    · exact .inr ⟨[], notes, hrun, hv_run⟩

/-- The words `in` and `int`, the second one in boxes, before the end of a list. -/
theorem trie_refines_ordered_choice_int :
    ExtensionsFirst [['i', 'n'], ['i', 'n', 't']] [['i', 'n', 't'], ['i', 'n']] ∧
      -(4 : Int) ≤ -2 ∧
      ∃ p q,
        (Grammar.trie [.text ['i', 'n'],
          .items [.box 0 (.text ['i']), .wrapped .plain ['n'], .text ['t']]]).build.result = .ok p ∧
        (Grammar.choice [.string (.text ['i', 'n', 't']),
          .string (.text ['i', 'n'])]).build.result = .ok q ∧
        ((∃ (text : Text) (stop : Int),
            p.run (.items [.text ['x'], .null, .tagged ['i'], .text ['n']]) (-2) =
              ⟨.success (.spanning (some "trie") (-2) stop (.text text)), stop⟩ ∧
            q.run (.items [.text ['x'], .null, .tagged ['i'], .text ['n']]) (-2) =
              ⟨.success (.spanning (some "string") (-2) stop (.text text)), stop⟩) ∨
          (∃ notes notes',
            p.run (.items [.text ['x'], .null, .tagged ['i'], .text ['n']]) (-2) =
              ⟨.failure { pos := -2, cause := .plain "No alternative matched.", notes }, -2⟩ ∧
            q.run (.items [.text ['x'], .null, .tagged ['i'], .text ['n']]) (-2) =
              ⟨.failure { pos := -2, cause := .plain "No alternative matched.",
                          notes := notes' }, -2⟩)) := by
  have hws : ExtensionsFirst [['i', 'n'], ['i', 'n', 't']] [['i', 'n', 't'], ['i', 'n']] :=
    ⟨fun w => by simp [or_comm], by decide, by decide⟩
  have hpos : -(4 : Int) ≤ -2 := by decide
  obtain ⟨root, _, _, hall⟩ := trie_refines_ordered_choice [.ofText ['i', 'n'],
    ⟨.items [.box 0 (.text ['i']), .wrapped .plain ['n'], .text ['t']], ['i', 'n', 't'], rfl⟩]
  obtain ⟨p, q, hp, hq, hrun⟩ := hall _ hws
  exact ⟨hws, hpos, p, q, hp, hq, hrun _ _ hpos⟩

/-- With the shorter word first, a choice stops behind it. -/
example :
    ((Parser.choice [.literal (.ofText ['i', 'n']), .literal (.ofText ['i', 'n', 't'])]).run
      (.text ['i', 'n', 't']) 0).pos = 2 := by decide

end Backtrack
