import Backtrack.Proofs.Nest
import Backtrack.Proofs.Splicing

/-!
# Flattening

A nest of sequences runs as one sequence of its leaves, and a nest of choices as one choice between
them, but for the notes of a failure that no leaf decided. A sequence without parts is a misuse, so a
nest of sequences needs parts at every node; a choice may have none anywhere. A single leaf is no
sequence of itself: a sequence tells the range from its own start, even behind a seek.
-/

namespace Backtrack

namespace Grammar

variable {gs : List Grammar} {ps : List Parser}

theorem Builds.ne_nil (h : Builds gs ps) (hgs : gs ≠ []) : ps ≠ [] := by
  rintro rfl
  exact hgs (List.forall₂_nil_right_iff.mp h)

/-- What is built of parts is their sequence. -/
theorem Builds.exists_sequence (h : Builds gs ps) (hgs : gs ≠ []) :
    ∃ first rest, ps = first :: rest ∧ (sequence gs).build.result = .ok (.sequence first rest) := by
  obtain ⟨first, rest, rfl⟩ := List.exists_cons_of_ne_nil (h.ne_nil hgs)
  exact ⟨first, rest, rfl, build_sequence_eq_ok.mpr ⟨first, rest, h, rfl⟩⟩

theorem sequence_standsFor (hgs : gs ≠ []) :
    StandsFor sequence (fun p q => ∀ src, p.run src = q.run src) [sequence gs] gs := by
  intro before behind q hq
  obtain ⟨first, rest, hall, rfl⟩ := build_sequence_eq_ok.mp hq
  obtain ⟨ps, qs, rs, hsplit, hqs, hreplace⟩ := hall.exists_splice
  obtain ⟨q, qs, rfl, hinner⟩ := hqs.exists_sequence hgs
  obtain ⟨first', rest', hsplit', houter⟩ := (hreplace _ _ hinner).exists_sequence (by simp)
  refine ⟨.sequence first' rest', houter, ?_⟩
  intro src
  rw [Parser.run_sequence, Parser.run_sequence, ← hsplit', hsplit, List.map_append, List.map_append,
    List.map_cons, List.map_append, Parser.run_sequence]
  exact Runner.sequence_splice _ (List.cons_ne_nil _ _) _

theorem choice_standsFor (gs : List Grammar) :
    StandsFor choice
      (fun p q => ∀ src start, Run.SameButNotes start (p.run src start) (q.run src start))
      [choice gs] gs := by
  intro before behind q hq
  obtain ⟨all, hall, rfl⟩ := build_choice_eq_ok.mp hq
  obtain ⟨ps, qs, rs, rfl, hqs, hreplace⟩ := hall.exists_splice
  have hinner : (choice gs).build.result = .ok (.choice qs) :=
    build_choice_eq_ok.mpr ⟨qs, hqs, rfl⟩
  refine ⟨_, build_choice_eq_ok.mpr ⟨_, hreplace _ _ hinner, rfl⟩, ?_⟩
  intro src start
  rw [Parser.run_choice, Parser.run_choice, List.map_append, List.map_append, List.map_cons,
    List.map_append, Parser.run_choice]
  exact Runner.choice_splice _ _ _ start

end Grammar

open Grammar (Nest Builds)

/-- A nest of sequences with parts at every node is built if its leaves are, and runs exactly as the
sequence of its leaves: same result with the same range, same failure, same fault, same place. -/
theorem nested_sequence_flattens {parts : List Nest}
    (hparts : ∀ inner ∈ (Nest.node parts).nodes, inner ≠ []) {ps : List Parser}
    (hps : Builds (Nest.node parts).leaves ps) :
    ∃ tree first rest, ps = first :: rest ∧
      ((Nest.node parts).join .sequence).build.result = .ok tree ∧
      (Grammar.sequence (Nest.node parts).leaves).build.result = .ok (.sequence first rest) ∧
      ∀ (src : Sequence) (start : Int),
        tree.run src start = (Parser.sequence first rest).run src start := by
  obtain ⟨first, rest, hcons, hflat⟩ := hps.exists_sequence (Nest.leaves_ne_nil hparts)
  have hsplice : ∀ inner ∈ (Nest.node parts).nodes,
      Grammar.StandsFor Grammar.sequence (fun p q => ∀ src, p.run src = q.run src)
        [.sequence (Nest.joinAll .sequence inner)] (Nest.joinAll .sequence inner) := by
    intro inner hinner
    exact Grammar.sequence_standsFor (Nest.joinAll_ne_nil (hparts inner hinner))
  obtain ⟨tree, htree, hrun⟩ := Nest.exists_join_node (fun _ _ => rfl)
    (fun _ _ _ h h' src => (h src).trans (h' src)) hsplice hflat
  exact ⟨tree, first, rest, hcons, htree, hflat, fun src start => congrFun (hrun src) start⟩

/-- The inner sequence goes back to the start on its way: it reads from 1 to 1 and the outer one, like
the flat one, from 0 to 1. -/
theorem nested_sequence_flattens_seek :
    (∀ inner ∈ (Nest.node [.leaf (.token .all (.plain none)),
      .node [.leaf (.seek 0 true), .leaf (.token .all (.plain none))]]).nodes, inner ≠ []) ∧
    Builds (Nest.node [.leaf (.token .all (.plain none)),
      .node [.leaf (.seek 0 true), .leaf (.token .all (.plain none))]]).leaves
      [.token .all (.plain none), .seek 0 true, .token .all (.plain none)] ∧
    ∃ tree, ((Nest.node [.leaf (.token .all (.plain none)),
      .node [.leaf (.seek 0 true), .leaf (.token .all (.plain none))]]).join
        .sequence).build.result = .ok tree ∧
      tree.run (.text ['a', 'b']) 0 = ⟨.success (.spanning none 0 1 (.text ['a'])), 1⟩ := by
  have hparts : ∀ inner ∈ (Nest.node [.leaf (.token .all (.plain none)),
      .node [.leaf (.seek 0 true), .leaf (.token .all (.plain none))]]).nodes, inner ≠ [] := by
    simp [Nest.nodes, Nest.nodesAll]
  have hleaves : Builds (Nest.node [.leaf (.token .all (.plain none)),
      .node [.leaf (.seek 0 true), .leaf (.token .all (.plain none))]]).leaves
      [.token .all (.plain none), .seek 0 true, .token .all (.plain none)] :=
    .cons rfl (.cons rfl (.cons rfl .nil))
  obtain ⟨tree, first, rest, hcons, htree, -, hrun⟩ := nested_sequence_flattens hparts hleaves
  cases hcons
  refine ⟨hparts, hleaves, tree, htree, ?_⟩
  rw [hrun]
  rfl

/-- A nest of choices, empty ones among them, is built if its leaves are, and runs as the choice
between its leaves, but for the notes where no leaf decides. -/
theorem nested_choice_flattens (parts : List Nest) {ps : List Parser}
    (hps : Builds (Nest.node parts).leaves ps) :
    ∃ tree, ((Nest.node parts).join .choice).build.result = .ok tree ∧
      (Grammar.choice (Nest.node parts).leaves).build.result = .ok (.choice ps) ∧
      ∀ (src : Sequence) (start : Int), Run.SameButNotes start (tree.run src start)
        ((Parser.choice ps).run src start) := by
  have hflat : (Grammar.choice (Nest.node parts).leaves).build.result = .ok (.choice ps) :=
    Grammar.build_choice_eq_ok.mpr ⟨ps, hps, rfl⟩
  obtain ⟨tree, htree, hrun⟩ := Nest.exists_join_node (fun _ _ _ => .same _)
    (fun _ _ _ h h' src start => (h src start).trans (h' src start))
    (fun inner _ => Grammar.choice_standsFor (Nest.joinAll .choice inner)) hflat
  exact ⟨tree, htree, hflat, hrun⟩

/-- An empty choice before one whose alternative comes back to the start and fails. -/
theorem nested_choice_flattens_seek :
    Builds (Nest.node [.node [], .node [.leaf (.seek 0 false)], .leaf (.never "no")]).leaves
      [.seek 0 false, .never "no"] ∧
    ∃ tree, ((Nest.node [.node [], .node [.leaf (.seek 0 false)], .leaf (.never "no")]).join
        .choice).build.result = .ok tree ∧
      Run.SameButNotes 0 (tree.run (.text ['a']) 0)
        (Runner.undecided 0 [⟨0, "no"⟩, ⟨0, "seek failed"⟩]) := by
  have hleaves : Builds
      (Nest.node [.node [], .node [.leaf (.seek 0 false)], .leaf (.never "no")]).leaves
      [.seek 0 false, .never "no"] := .cons rfl (.cons rfl .nil)
  obtain ⟨tree, htree, -, hrun⟩ := nested_choice_flattens
    [.node [], .node [.leaf (.seek 0 false)], .leaf (.never "no")] hleaves
  exact ⟨hleaves, tree, htree, hrun (.text ['a']) 0⟩

end Backtrack
