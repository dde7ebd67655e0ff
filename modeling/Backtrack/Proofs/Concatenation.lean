import Backtrack.Proofs.Building
import Backtrack.Proofs.Decision
import Backtrack.Proofs.Position

/-!
# Literals of concatenations

A literal may be cut into pieces that are run one behind the other: all of them pass exactly if the
source reads the whole text. Each piece goes back to its own start only, so the pieces need an attempt
around them to go back as the literal does. Where the source does not read the text, the piece that
stops has its first miss at the same item as the whole, and the pieces before it account for the
difference of the offsets. Empty pieces pass anywhere.
-/

namespace Backtrack

open Runner (Passes)

namespace Runner

variable {src : Sequence}

/-- The literals of some texts. -/
def pieces (src : Sequence) (ws : List Text) : List Runner :=
  ws.map fun w => literal src (.ofText w)

/-- Pieces that pass have read the texts one behind the other, and nothing else stops them. -/
theorem passes_pieces {ws : List Text} {pos stop : Int} (h : -(src.length : Int) ≤ pos) :
    Passes (pieces src ws) pos stop ↔
      src.Reads pos ws.flatten ∧ stop = pos + ws.flatten.length := by
  induction ws generalizing pos with
  | nil =>
    rw [pieces, List.map_nil, passes_nil, List.flatten_nil, List.length_nil, Int.natCast_zero,
      Int.add_zero, iff_true_intro (Sequence.reads_nil src pos), true_and]
  | cons w ws ih =>
    have hbehind : -(src.length : Int) ≤ pos + w.length := by omega
    rw [pieces, List.map_cons, passes_cons, List.flatten_cons, Sequence.reads_append,
      List.length_append]
    by_cases hreads : src.Reads pos w
    · rw [literal_ofText_of_reads h hreads, iff_true_intro hreads, true_and]
      constructor
      · intro hpass
        obtain ⟨r, next, hrun, hpass⟩ := hpass
        cases hrun
        obtain ⟨hrest, hstop⟩ := (ih hbehind).mp hpass
        exact ⟨hrest, by omega⟩
      · intro hrest
        exact ⟨_, _, rfl, (ih hbehind).mpr ⟨hrest.1, by omega⟩⟩
    · -- neither side holds: the first piece fails, and the source does not read it
      obtain ⟨f, hf⟩ := literal_ofText_of_not_reads h hreads
      rw [hf]
      constructor
      · intro hpass
        obtain ⟨r, next, hrun, -⟩ := hpass
        cases hrun
      · intro hall
        exact absurd hall.1.1 hreads

/-- The pieces pass, or one of them stops at the first miss of the whole text. -/
theorem sequence_pieces (ws : List Text) {pos : Int} (h : -(src.length : Int) ≤ pos) :
    (src.Reads pos ws.flatten ∧
      ∃ res, sequence (pieces src ws) pos = ⟨.success res, pos + ws.flatten.length⟩) ∨
    ∃ before w behind i c found, ws = before ++ w :: behind ∧
      Passes (pieces src before) pos (pos + before.flatten.length) ∧
      src.FirstMiss pos ws.flatten (before.flatten.length + i) c found ∧
      sequence (pieces src ws) pos =
        ⟨.failure { pos := pos + (before.flatten.length + i : Nat),
                    cause := .mismatch (.ofText w) i (String.singleton c) found },
          pos + before.flatten.length⟩ := by
  rcases sequence_cases (pieces src ws) pos with
    ⟨stop, res, hpass, hend⟩ | ⟨runners, p, rest, mid, hsplit, hpass, hp, hend⟩
  · obtain ⟨hreads, rfl⟩ := (passes_pieces h).mp hpass
    exact .inl ⟨hreads, res, hend⟩
  · obtain ⟨before, ws', hws, rfl, htail⟩ := List.map_eq_append_iff.mp hsplit
    obtain ⟨w, behind, rfl, rfl, -⟩ := List.map_eq_cons_iff.mp htail
    obtain ⟨hreads, rfl⟩ := (passes_pieces h).mp hpass
    -- the piece `w` does not succeed where it is run, so it has a miss there
    have hmid : -(src.length : Int) ≤ pos + before.flatten.length := by omega
    rcases literal_run (.ofText w) hmid with ⟨-, hrun⟩ | ⟨i, c, found, hmiss, hrun⟩
    · rw [hrun] at hp
      exact absurd (Run.succeeds_success _ _) hp
    · have hplace : pos + before.flatten.length + (i : Int) =
          pos + ((before.flatten.length + i : Nat) : Int) := by omega
      rw [hrun, hplace] at hend
      refine .inr ⟨before, w, behind, i, c, found, hws, hpass, ?_, hend⟩
      rw [hws, List.flatten_append, List.flatten_cons]
      exact hmiss.append hreads behind.flatten

end Runner

/-- The literal of a concatenation and an attempt at the literals of its pieces, one behind the other,
succeed on the same inputs over the same range. Elsewhere both fail without moving, at the same
position with the same character expected and the same item found. The offsets reported differ by the
length of the pieces that have passed. -/
theorem concatenation_matches_piecewise (first : Text) (rest : List Text) (src : Sequence)
    (pos : Nat) :
    ∃ p q,
      (Grammar.string (.text (first :: rest).flatten)).build.result = .ok p ∧
      (Grammar.attempt
        (.sequence ((first :: rest).map fun w => .string (.text w)))).build.result = .ok q ∧
      ((∃ res res',
          p.run src pos = ⟨.success res, pos + (first :: rest).flatten.length⟩ ∧
          q.run src pos = ⟨.success res', pos + (first :: rest).flatten.length⟩ ∧
          res.range = some ((pos : Int), (pos : Int) + (first :: rest).flatten.length) ∧
          res'.range = some ((pos : Int), (pos : Int) + (first :: rest).flatten.length)) ∨
        ∃ (before : List Text) (piece : Text) (behind : List Text) (i : Nat) (what : String)
            (found : Value),
          first :: rest = before ++ piece :: behind ∧
          Passes (before.map fun w => (Parser.literal (.ofText w)).run src) pos
            (pos + before.flatten.length) ∧
          p.run src pos =
            { outcome := .failure
                { pos := pos + (before.flatten.length + i : Nat)
                  cause := .mismatch (.ofText (first :: rest).flatten)
                    (before.flatten.length + i : Nat) what found }
              pos := pos } ∧
          q.run src pos =
            { outcome := .failure
                { pos := pos + (before.flatten.length + i : Nat)
                  cause := .mismatch (.ofText piece) i what found }
              pos := pos }) := by
  have hparts : Grammar.Builds ((first :: rest).map fun w => .string (.text w))
      ((first :: rest).map fun w => .literal (.ofText w)) := Grammar.builds_map fun _ _ => rfl
  refine ⟨.literal (.ofText (first :: rest).flatten),
    .attempt (.sequence (.literal (.ofText first)) (rest.map fun w => .literal (.ofText w))), rfl,
    Grammar.build_attempt_eq_ok.mpr ⟨_, Grammar.build_sequence_eq_ok.mpr ⟨_, _, hparts, rfl⟩, rfl⟩,
    ?_⟩
  have hpos : -(src.length : Int) ≤ pos := by omega
  have hpieces : (Parser.sequence (.literal (.ofText first))
      (rest.map fun w => .literal (.ofText w))).run src =
      Runner.sequence (Runner.pieces src (first :: rest)) := by
    rw [Parser.run_sequence, Runner.pieces, List.map_cons, List.map_map]
    rfl
  have haccounts : Runner.Accounts src.length (Runner.sequence (Runner.pieces src (first :: rest))) :=
    Runner.accounts_sequence (List.forall_mem_map.mpr fun _ _ => Runner.accounts_literal _)
  rw [Parser.run, Parser.run, hpieces]
  rcases Runner.sequence_pieces (first :: rest) hpos with
    ⟨hreads, res, hrun⟩ | ⟨before, piece, behind, i, c, found, hsplit, hpass, hmiss, hrun⟩
  · have hrange := (haccounts pos).range res (by rw [hrun])
    rw [hrun] at hrange
    exact .inl ⟨_, res, Runner.literal_ofText_of_reads hpos hreads, Runner.attempt_success hrun, rfl,
      hrange⟩
  · exact .inr ⟨before, piece, behind, i, String.singleton c, found, hsplit, hpass,
      Runner.literal_of_miss hpos hmiss, Runner.attempt_failure hrun⟩

end Backtrack
