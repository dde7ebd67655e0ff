import Backtrack.Grammar
import Backtrack.Proofs.Effect
import Mathlib.Data.List.Forall2

/-!
# What is built

A grammar that is built gives a parser of the same shape, put together from the parsers of its
parts. So the parser has an effect only if the grammar does.
-/

namespace Backtrack

namespace Build

variable {α β : Type}

theorem result_bind (b : Build α) (f : α → Build β) :
    (b >>= f).result = b.result >>= fun x => (f x).result := by
  obtain ⟨events, result⟩ := b
  cases result with
  | error m => rfl
  | ok x => rfl

theorem bind_eq_ok {b : Build α} {f : α → Build β} {y : β} :
    (b >>= f).result = .ok y ↔ ∃ x, b.result = .ok x ∧ (f x).result = .ok y := by
  rw [result_bind]
  cases b.result with
  | error m => simp [bind, Except.bind]
  | ok x => simp [bind, Except.bind]

theorem pure_eq_ok {x y : α} : (pure x : Build α).result = .ok y ↔ y = x := by
  simp [pure, eq_comm]

theorem map_eq_ok {b : Build α} {f : α → β} {y : β} :
    (do return f (← b) : Build β).result = .ok y ↔ ∃ x, b.result = .ok x ∧ y = f x := by
  simp only [bind_eq_ok, pure_eq_ok]

theorem ofExcept_map_eq_ok {e : Except Misuse α} {f : α → β} {y : β} :
    (ofExcept (do return f (← e))).result = .ok y ↔ ∃ x, e = .ok x ∧ y = f x := by
  cases e with
  | error m => simp [ofExcept, bind, Except.bind]
  | ok x => simp [ofExcept, bind, Except.bind, pure, Except.pure, eq_comm]

end Build

namespace Grammar

variable {g : Grammar} {gs : List Grammar} {p : Parser} {ps : List Parser}

/-- The parsers are those that the grammars give, in the same order. -/
def Builds (gs : List Grammar) (ps : List Parser) : Prop :=
  List.Forall₂ (fun g p => g.build.result = .ok p) gs ps

theorem buildAll_eq_ok : (buildAll gs).result = .ok ps ↔ Builds gs ps := by
  induction gs generalizing ps with
  | nil =>
    rw [buildAll, Build.pure_eq_ok, Builds, List.forall₂_nil_left_iff]
  | cons g gs ih =>
    rw [buildAll, Build.bind_eq_ok]
    constructor
    · rintro ⟨p, hp, h⟩
      obtain ⟨qs, hqs, h⟩ := Build.bind_eq_ok.mp h
      cases Build.pure_eq_ok.mp h
      exact .cons hp (ih.mp hqs)
    · intro h
      cases h with
      | @cons _ p _ qs hp hqs =>
        exact ⟨p, hp, Build.bind_eq_ok.mpr ⟨qs, ih.mpr hqs, rfl⟩⟩

theorem Builds.exists_of_mem (h : Builds gs ps) (hp : p ∈ ps) :
    ∃ g ∈ gs, g.build.result = .ok p := by
  induction h with
  | nil => cases hp
  | @cons g q gs ps hq _ ih =>
    rcases List.mem_cons.mp hp with rfl | hp
    · exact ⟨g, List.mem_cons_self, hq⟩
    · obtain ⟨g', hg', hbuild⟩ := ih hp
      exact ⟨g', List.mem_cons_of_mem g hg', hbuild⟩

theorem builds_map {α : Type} {xs : List α} {f : α → Grammar} {g : α → Parser}
    (h : ∀ x ∈ xs, (f x).build.result = .ok (g x)) : Builds (xs.map f) (xs.map g) := by
  rw [Builds, List.forall₂_map_left_iff, List.forall₂_map_right_iff, List.forall₂_same]
  exact h

theorem Builds.append {hs : List Grammar} {qs : List Parser} (h : Builds gs ps)
    (h' : Builds hs qs) : Builds (gs ++ hs) (ps ++ qs) :=
  List.rel_append h h'

theorem Builds.exists_append {hs : List Grammar} (h : Builds (gs ++ hs) ps) :
    ∃ qs rs, ps = qs ++ rs ∧ Builds gs qs ∧ Builds hs rs := by
  refine ⟨ps.take gs.length, ps.drop gs.length, (List.take_append_drop _ _).symm, ?_, ?_⟩
  · exact (List.forall₂_take_append _ _ _ h.flip).flip
  · exact (List.forall₂_drop_append _ _ _ h.flip).flip

theorem build_sequence_eq_ok : (sequence gs).build.result = .ok p ↔
    ∃ first rest, Builds gs (first :: rest) ∧ p = .sequence first rest := by
  show (buildAll gs >>= fun ps => Build.ofExcept (Parser.ofSequence ps)).result = .ok p ↔ _
  rw [Build.bind_eq_ok]
  constructor
  · rintro ⟨ps, hps, h⟩
    cases ps with
    | nil => cases h
    | cons first rest =>
      cases h
      exact ⟨first, rest, buildAll_eq_ok.mp hps, rfl⟩
  · rintro ⟨first, rest, hps, rfl⟩
    exact ⟨first :: rest, buildAll_eq_ok.mpr hps, rfl⟩

theorem build_choice_eq_ok : (choice gs).build.result = .ok p ↔
    ∃ ps, Builds gs ps ∧ p = .choice ps := by
  simp only [← buildAll_eq_ok]
  exact Build.map_eq_ok

theorem build_attempt_eq_ok : (attempt g).build.result = .ok p ↔
    ∃ body, g.build.result = .ok body ∧ p = .attempt body :=
  Build.map_eq_ok

theorem build_label_eq_ok {name : String} : (label name g).build.result = .ok p ↔
    ∃ body, g.build.result = .ok body ∧ p = .label name body :=
  Build.map_eq_ok

theorem build_anonymous_eq_ok : (anonymous g).build.result = .ok p ↔
    ∃ body, g.build.result = .ok body ∧ p = .anonymous body :=
  Build.map_eq_ok

theorem build_character_eq_ok {v : Value} : (character v).build.result = .ok p ↔
    ∃ c, v.letter = .ok c ∧
      p = .label s!"character({String.ofList (Text.quoted [c])})"
        (.sequence (.token (.same (.text [c])) (.expect (String.singleton c)))
          [.always v (some "character")]) :=
  Build.ofExcept_map_eq_ok

theorem build_string_eq_ok {s : Sequence} : (string s).build.result = .ok p ↔
    ∃ l : Literal, l.written = s ∧ p = .literal l := by
  have hbuild : (string s).build.result = .ok p ↔
      ∃ l, Literal.ofSequence s = .ok l ∧ p = .literal l :=
    Build.ofExcept_map_eq_ok
  rw [hbuild]
  constructor
  · rintro ⟨l, hl, hp⟩
    exact ⟨l, Literal.written_of_ofSequence hl, hp⟩
  · rintro ⟨l, rfl, hp⟩
    exact ⟨l, Literal.ofSequence_of_spell l.spelled, hp⟩

theorem build_trie_eq_ok {words : List Sequence} : (trie words).build.result = .ok p ↔
    ∃ root, Trie.ofWords words = .ok root ∧ p = .trie root := by
  show (Parser.ofWords words).result = .ok p ↔ _
  rw [Parser.ofWords, Build.bind_eq_ok]
  constructor
  · rintro ⟨root, hroot, h⟩
    obtain ⟨-, -, h⟩ := Build.bind_eq_ok.mp h
    exact ⟨root, hroot, Build.pure_eq_ok.mp h⟩
  · rintro ⟨root, hroot, rfl⟩
    exact ⟨root, hroot, rfl⟩

theorem build_oneOf_eq_ok {s : Sequence} : (oneOf s).build.result = .ok p ↔
    ∃ letters, s.spell = .ok letters ∧
      p = .label s!"one_of({String.ofList letters.quoted})"
        (.token (.within letters) (.expect s!"one of '{String.ofList letters}'")) :=
  Build.ofExcept_map_eq_ok

theorem build_noneOf_eq_ok {s : Sequence} : (noneOf s).build.result = .ok p ↔
    ∃ letters, s.spell = .ok letters ∧
      p = .label s!"none_of({String.ofList letters.quoted})"
        (.token (.outside letters) (.expect s!"none of '{String.ofList letters}'")) :=
  Build.ofExcept_map_eq_ok

mutual

/-- No part of the grammar has the effect. -/
def lacks (e : Effect) : Grammar → Bool
  | .sequence parts => allLack e parts
  | .choice alternatives => allLack e alternatives
  | .attempt body => lacks e body
  | .label _ body => lacks e body
  | .anonymous body => lacks e body
  | .seek _ _ => e != .seek
  | .raise _ => e != .raise
  | _ => true
termination_by structural g => g

def allLack (e : Effect) : List Grammar → Bool
  | [] => true
  | g :: rest => lacks e g && allLack e rest
termination_by structural gs => gs

end

theorem allLack_of_builds {e : Effect} (h : Builds gs ps)
    (hgs : ∀ g ∈ gs, ∀ p, g.build.result = .ok p → p.lacks e = g.lacks e) :
    Parser.allLack e ps = allLack e gs := by
  induction h with
  | nil => rfl
  | @cons g p gs ps hp _ ih =>
    rw [Parser.allLack, allLack, hgs g List.mem_cons_self p hp,
      ih fun g' hg' => hgs g' (List.mem_cons_of_mem g hg')]

/-- The parser of a grammar has the effects of the grammar. -/
theorem lacks_of_build {e : Effect} (h : g.build.result = .ok p) : p.lacks e = g.lacks e := by
  induction g generalizing p with
  | step g ih =>
    cases g with
    | sequence gs =>
      obtain ⟨first, rest, hps, rfl⟩ := build_sequence_eq_ok.mp h
      exact allLack_of_builds hps fun g hg p hp => ih g hg hp
    | choice gs =>
      obtain ⟨ps, hps, rfl⟩ := build_choice_eq_ok.mp h
      exact allLack_of_builds hps fun g hg p hp => ih g hg hp
    | attempt body =>
      obtain ⟨q, hq, rfl⟩ := build_attempt_eq_ok.mp h
      rw [Parser.lacks, lacks, ih body List.mem_cons_self hq]
    | label name body =>
      obtain ⟨q, hq, rfl⟩ := build_label_eq_ok.mp h
      rw [Parser.lacks, lacks, ih body List.mem_cons_self hq]
    | anonymous body =>
      obtain ⟨q, hq, rfl⟩ := build_anonymous_eq_ok.mp h
      rw [Parser.lacks, lacks, ih body List.mem_cons_self hq]
    | character v =>
      obtain ⟨c, _, rfl⟩ := build_character_eq_ok.mp h
      rfl
    | string s =>
      obtain ⟨l, _, rfl⟩ := build_string_eq_ok.mp h
      rfl
    | trie words =>
      obtain ⟨root, _, rfl⟩ := build_trie_eq_ok.mp h
      rfl
    | oneOf s =>
      obtain ⟨letters, _, rfl⟩ := build_oneOf_eq_ok.mp h
      rfl
    | noneOf s =>
      obtain ⟨letters, _, rfl⟩ := build_noneOf_eq_ok.mp h
      rfl
    | _ =>
      cases h
      rfl

end Grammar

end Backtrack
