import Backtrack.Proofs.Building
import Backtrack.Proofs.Decision

/-!
# Atomic parsers

An atomic parser leaves its start only if it succeeds. Parsers of one item, literals, tries and
attempts of anything are atomic, and so are labels of atomic parsers and choices between them. A
choice between atomic parsers never stops at a failure, so it takes the first alternative that
succeeds.
-/

namespace Backtrack

namespace Runner

/-- No run leaves its start unless it succeeds. -/
def Atomic (p : Runner) : Prop := ∀ pos, (p pos).Succeeds ∨ (p pos).pos = pos

variable {src : Sequence} {p : Runner} {start : Int}

theorem atomic_token (accepts : Value → Bool) (refuse : Int → Value → Failure) :
    Atomic (token src accepts refuse) := by
  intro pos
  rw [token]
  split
  · exact .inr rfl
  · exact .inr rfl
  · split
    · exact .inl (Run.succeeds_success _ _)
    · exact .inr rfl

theorem atomic_eof : Atomic (eof src) := by
  intro pos
  rw [eof]
  split
  · exact .inr rfl
  · exact .inl (Run.succeeds_success _ _)
  · exact .inr rfl

theorem atomic_trie (root : Trie) : Atomic (trie src root) := by
  intro pos
  cases hrun : (Trie.Walk.start root pos).run src with
  | error e =>
    rw [trie_fault hrun]
    exact .inr rfl
  | ok w =>
    cases hlongest : w.longest with
    | none =>
      rw [trie_failure hrun hlongest]
      exact .inr rfl
    | some n =>
      rw [trie_success hrun hlongest]
      exact .inl (Run.succeeds_success _ _)

/-- What always succeeds does not take away that a part before it is atomic. -/
theorem atomic_sequence_always (h : Atomic p) (value : Value) (type : Option String) :
    Atomic (sequence [p, always value type]) := by
  intro pos
  rcases hrun : p pos with ⟨outcome, next⟩
  have hp := h pos
  rw [hrun] at hp
  cases outcome with
  | success r =>
    rw [sequence, sequenceFrom_success hrun]
    exact .inl (Run.succeeds_success _ _)
  | failure f =>
    rw [sequence, sequenceFrom_failure hrun]
    exact hp
  | fault e =>
    rw [sequence, sequenceFrom_fault hrun]
    exact hp

/-- An attempt goes back whatever the body has done. -/
theorem atomic_attempt (p : Runner) : Atomic (attempt p) := by
  intro pos
  rcases hrun : p pos with ⟨outcome, next⟩
  cases outcome with
  | success r =>
    rw [attempt_success hrun]
    exact .inl (Run.succeeds_success _ _)
  | failure f =>
    rw [attempt_failure hrun]
    exact .inr rfl
  | fault e =>
    rw [attempt_fault hrun]
    exact .inr rfl

theorem atomic_choice {ps : List Runner} (h : ∀ p ∈ ps, Atomic p) : Atomic (choice ps) := by
  intro pos
  rcases choice_cases ps pos with ⟨before, p, behind, rfl, _, _, hend⟩ | ⟨fs, _, hend⟩
  · rw [hend]
    exact h p List.mem_append_cons_self pos
  · rw [hend]
    exact .inr rfl

/-- Without a fault, all that an atomic alternative can do but succeed is to refuse. -/
theorem Atomic.succeeds_or_refuses (h : Atomic p) (hfault : ∀ e, (p start).outcome ≠ .fault e) :
    (p start).Succeeds ∨ Refuses start p := by
  rcases hrun : p start with ⟨outcome, next⟩
  have hp := h start
  rw [hrun] at hp hfault
  cases outcome with
  | success r => exact .inl (Run.succeeds_success r next)
  | failure f =>
    have hnext : next = start := hp.resolve_left (Run.not_succeeds_failure f next)
    exact .inr ⟨f, hnext ▸ hrun⟩
  | fault e => exact absurd rfl (hfault e)

theorem choice_succeeds_iff {ps : List Runner}
    (h : ∀ p ∈ ps, (p start).Succeeds ∨ Refuses start p) :
    (choice ps start).Succeeds ↔ ∃ p ∈ ps, (p start).Succeeds := by
  rcases choice_cases ps start with ⟨before, p, behind, rfl, _, hp, hend⟩ | ⟨fs, hall, hend⟩
  · have hsucceeds : (p start).Succeeds := (h p List.mem_append_cons_self).resolve_right hp
    rw [hend]
    exact ⟨fun _ => ⟨p, List.mem_append_cons_self, hsucceeds⟩, fun _ => hsucceeds⟩
  · rw [hend, iff_false_left (Run.not_succeeds_failure _ _)]
    rintro ⟨p, hp, hsucceeds⟩
    exact (refuses_of_forall₂ hall p hp).not_succeeds hsucceeds

/-- The first alternative that succeeds is the answer of the choice, place and all. -/
theorem choice_eq_first {before behind : List Runner} (hbefore : ∀ q ∈ before, Refuses start q)
    (hp : (p start).Succeeds) : choice (before ++ p :: behind) start = p start :=
  choiceFrom_eq_first hbefore (.inl hp) behind []

end Runner

namespace Grammar

mutual

def atomic : Grammar → Bool
  | .sequence _ => false
  | .choice alternatives => allAtomic alternatives
  | .label _ body => atomic body
  | .anonymous body => atomic body
  | .seek _ _ => false
  | .raise _ => false
  | _ => true
termination_by structural g => g

def allAtomic : List Grammar → Bool
  | [] => true
  | g :: rest => atomic g && allAtomic rest
termination_by structural gs => gs

end

theorem allAtomic_iff {gs : List Grammar} :
    allAtomic gs = true ↔ ∀ g ∈ gs, g.atomic = true := by
  induction gs with
  | nil => simp [allAtomic]
  | cons g rest ih => simp [allAtomic, ih]

theorem atomic_run {g : Grammar} (hg : g.atomic = true) {p : Parser}
    (hp : g.build.result = .ok p) (src : Sequence) : Runner.Atomic (p.run src) := by
  induction g generalizing p with
  | step g ih =>
    cases g with
    | sequence gs => cases hg
    | seek target succeeds => cases hg
    | raise msg => cases hg
    | choice gs =>
      obtain ⟨ps, hps, rfl⟩ := build_choice_eq_ok.mp hp
      rw [Parser.run_choice]
      refine Runner.atomic_choice (List.forall_mem_map.mpr ?_)
      intro p hmem
      obtain ⟨g, hgs, hbuild⟩ := hps.exists_of_mem hmem
      exact ih g hgs (allAtomic_iff.mp hg g hgs) hbuild
    | attempt body =>
      obtain ⟨q, _, rfl⟩ := build_attempt_eq_ok.mp hp
      exact Runner.atomic_attempt _
    | label name body =>
      obtain ⟨q, hq, rfl⟩ := build_label_eq_ok.mp hp
      have hbody : Runner.Atomic (q.run src) := ih body List.mem_cons_self hg hq
      exact hbody
    | anonymous body =>
      obtain ⟨q, hq, rfl⟩ := build_anonymous_eq_ok.mp hp
      have hbody : Runner.Atomic (q.run src) := ih body List.mem_cons_self hg hq
      exact hbody
    | character v =>
      obtain ⟨c, _, rfl⟩ := build_character_eq_ok.mp hp
      exact Runner.atomic_sequence_always (Runner.atomic_token _ _) v _
    | string s =>
      obtain ⟨l, _, rfl⟩ := build_string_eq_ok.mp hp
      exact Runner.atomic_attempt _
    | trie words =>
      obtain ⟨root, _, rfl⟩ := build_trie_eq_ok.mp hp
      exact Runner.atomic_trie root
    | oneOf s =>
      obtain ⟨letters, _, rfl⟩ := build_oneOf_eq_ok.mp hp
      exact Runner.atomic_token _ _
    | noneOf s =>
      obtain ⟨letters, _, rfl⟩ := build_noneOf_eq_ok.mp hp
      exact Runner.atomic_token _ _
    | eof =>
      cases hp
      exact Runner.atomic_eof
    | always value type =>
      cases hp
      exact fun pos => .inl (Run.succeeds_success _ _)
    | never msg =>
      cases hp
      exact fun pos => .inr rfl
    | _ =>
      cases hp
      exact Runner.atomic_token _ _

end Grammar

/-- An atomic parser that does not succeed is back at its start, even after a fault. A choice
between atomic parsers that do not fault succeeds if one of them does, and then runs just as the
first one that does. -/
theorem choice_of_atomic_backtracks :
    (∀ (g : Grammar) (p : Parser), g.atomic = true → g.build.result = .ok p →
      ∀ (src : Sequence) (start : Int),
        (p.run src start).Succeeds ∨ (p.run src start).pos = start) ∧
    ∀ (gs : List Grammar) (ps : List Parser), (∀ g ∈ gs, g.atomic = true) → Grammar.Builds gs ps →
      (Grammar.choice gs).build.result = .ok (.choice ps) ∧
      ∀ (src : Sequence) (start : Int), (∀ p ∈ ps, ∀ e, (p.run src start).outcome ≠ .fault e) →
        (((Parser.choice ps).run src start).Succeeds ↔ ∃ p ∈ ps, (p.run src start).Succeeds) ∧
        ∀ before p behind, ps = before ++ p :: behind →
          (∀ q ∈ before, ¬ (q.run src start).Succeeds) → (p.run src start).Succeeds →
          (Parser.choice ps).run src start = p.run src start := by
  refine ⟨fun g p hg hp src start => Grammar.atomic_run hg hp src start, ?_⟩
  intro gs ps hgs hps
  refine ⟨Grammar.build_choice_eq_ok.mpr ⟨ps, hps, rfl⟩, ?_⟩
  intro src start hfaults
  have hall : ∀ p ∈ ps, (p.run src start).Succeeds ∨ Runner.Refuses start (p.run src) := by
    intro p hp
    obtain ⟨g, hg, hbuild⟩ := hps.exists_of_mem hp
    exact (Grammar.atomic_run (hgs g hg) hbuild src).succeeds_or_refuses (hfaults p hp)
  refine ⟨?_, ?_⟩
  · rw [Parser.run_choice, Runner.choice_succeeds_iff (List.forall_mem_map.mpr hall)]
    simp only [List.mem_map, exists_exists_and_eq_and]
  · rintro before p behind rfl hbefore hp
    rw [Parser.run_choice, List.map_append, List.map_cons]
    refine Runner.choice_eq_first (List.forall_mem_map.mpr ?_) hp
    intro q hq
    exact (hall q (List.mem_append_left _ hq)).resolve_left (hbefore q hq)

/-- An attempt that moves far behind the end, before a token that takes the first item. -/
theorem choice_of_atomic_backtracks_seek :
    (∀ g ∈ [Grammar.attempt (.seek 7 false), .token .all (.plain none)], g.atomic = true) ∧
    Grammar.Builds [.attempt (.seek 7 false), .token .all (.plain none)]
      [.attempt (.seek 7 false), .token .all (.plain none)] ∧
    (∀ p ∈ [Parser.attempt (.seek 7 false), .token .all (.plain none)],
      ∀ e, (p.run (.text ['a', 'c']) 0).outcome ≠ .fault e) ∧
    ¬ ((Parser.attempt (.seek 7 false)).run (.text ['a', 'c']) 0).Succeeds ∧
    (Parser.choice [.attempt (.seek 7 false), .token .all (.plain none)]).run
      (.text ['a', 'c']) 0 = (Parser.token .all (.plain none)).run (.text ['a', 'c']) 0 := by
  have hatomic : ∀ g ∈ [Grammar.attempt (.seek 7 false), .token .all (.plain none)],
      g.atomic = true := by decide
  have hbuilds : Grammar.Builds [.attempt (.seek 7 false), .token .all (.plain none)]
      [.attempt (.seek 7 false), .token .all (.plain none)] := .cons rfl (.cons rfl .nil)
  have hfails : ¬ ((Parser.attempt (.seek 7 false)).run (.text ['a', 'c']) 0).Succeeds :=
    Run.not_succeeds_failure _ _
  have htakes : ((Parser.token .all (.plain none)).run (.text ['a', 'c']) 0).Succeeds :=
    Run.succeeds_success _ _
  have hfaults : ∀ p ∈ [Parser.attempt (.seek 7 false), .token .all (.plain none)],
      ∀ e, (p.run (.text ['a', 'c']) 0).outcome ≠ .fault e :=
    List.forall_mem_cons.mpr ⟨fun _ => nofun, List.forall_mem_singleton.mpr fun _ => nofun⟩
  obtain ⟨-, hfirst⟩ :=
    (choice_of_atomic_backtracks.2 _ _ hatomic hbuilds).2 (.text ['a', 'c']) 0 hfaults
  refine ⟨hatomic, hbuilds, hfaults, hfails, ?_⟩
  exact hfirst [_] _ [] rfl (List.forall_mem_singleton.mpr hfails) htakes

end Backtrack
