import Backtrack.Proofs.Building
import Backtrack.Proofs.Spelling
import Backtrack.Proofs.Trie.LongestMatch

/-!
# Sets of characters

A set of characters can be written as a test of one item, as a choice between characters or as a trie
of words of one character. All three take the items that are characters of the set once unboxed, and
the complement takes every other item. What is no character, such as a longer text, a number or a box
inside a box, is in no set. None of the four takes anything at the end of the input, and none of them
moves when it fails.
-/

namespace Backtrack

namespace Run

/-- The run has taken the one item at `pos` and yields the same as `v` once unboxed. -/
def Takes (pos : Int) (v : Value) (r : Run) : Prop :=
  ∃ res, r = ⟨.success res, pos + 1⟩ ∧ res.range = some (pos, pos + 1) ∧ res.value.bare = v.bare

/-- The run fails at `pos` and has not moved. -/
def FailsAt (pos : Int) (r : Run) : Prop := ∃ f, r = ⟨.failure f, pos⟩ ∧ f.pos = pos

/-- A run from `pos` that takes the item there if it is accepted. -/
structure TakesIf (src : Sequence) (accepts : Value → Prop) (pos : Nat) (r : Run) : Prop where
  accepted : ∀ v, src.item? pos = some v → accepts v → r.Takes pos v
  refused : ∀ v, src.item? pos = some v → ¬ accepts v → r.FailsAt pos
  ended : src.item? pos = none → r.FailsAt pos

theorem TakesIf.congr {src : Sequence} {accepts accepts' : Value → Prop} {pos : Nat} {r : Run}
    (h : r.TakesIf src accepts pos) (hiff : ∀ v, accepts v ↔ accepts' v) :
    r.TakesIf src accepts' pos := by
  refine ⟨?_, ?_, h.ended⟩
  · intro v hv haccepts
    exact h.accepted v hv ((hiff v).mpr haccepts)
  · intro v hv haccepts
    exact h.refused v hv fun h' => haccepts ((hiff v).mp h')

end Run

open Run (TakesIf)

/-- The item is a character of the text once unboxed. -/
def Value.IsIn (letters : Text) (v : Value) : Prop := ∃ c ∈ letters, v.bare = .text [c]

theorem Test.isOneOf_iff {letters : Text} {v : Value} :
    isOneOf letters v = true ↔ v.IsIn letters := by
  unfold isOneOf
  split
  · next c hc =>
    have hbare := Value.letter?_eq_some.mp hc
    rw [List.contains_iff_mem]
    constructor
    · intro hmem
      exact ⟨c, hmem, hbare⟩
    · intro hin
      obtain ⟨d, hmem, hd⟩ := hin
      rw [hbare] at hd
      cases hd
      exact hmem
  · next hnone =>
    constructor
    · intro h
      cases h
    · intro hin
      obtain ⟨d, -, hd⟩ := hin
      rw [Value.letter?_eq_some.mpr hd] at hnone
      cases hnone

namespace Runner

variable {src : Sequence} {pos : Nat}

theorem takesIf_token {accepts : Value → Bool} {refuse : Int → Value → Failure}
    (h : ∀ v, (refuse pos v).pos = pos) :
    (token src accepts refuse pos).TakesIf src (fun v => accepts v = true) pos := by
  refine ⟨?_, ?_, ?_⟩
  · intro v hv haccepts
    simp only [token, Sequence.peek_ofNat, hv]
    rw [if_pos haccepts]
    exact ⟨_, rfl, rfl, rfl⟩
  · intro v hv haccepts
    simp only [token, Sequence.peek_ofNat, hv]
    rw [if_neg haccepts]
    exact ⟨_, rfl, h v⟩
  · intro hend
    simp only [token, Sequence.peek_ofNat, hend]
    exact ⟨_, rfl, h .null⟩

/-- The character in whatever form the input has it, with `v` as what is yielded. -/
theorem takesIf_character {v : Value} {c : Char} (hv : v.letter = .ok c) (type : Option String)
    {refuse : Int → Value → Failure} (h : ∀ w, (refuse pos w).pos = pos) :
    (sequence [token src (fun w => w.sameChar (.text [c])) refuse, always v type] pos).TakesIf src
      (fun w => w.bare = .text [c]) pos := by
  have htoken : (token src (fun w => w.sameChar (.text [c])) refuse pos).TakesIf src
      (fun w => w.bare = .text [c]) pos := (takesIf_token h).congr fun _ => Value.sameChar_text
  refine ⟨?_, ?_, ?_⟩
  · intro w hw hc
    obtain ⟨res, hrun, -, -⟩ := htoken.accepted w hw hc
    refine ⟨_, by rw [sequence, sequenceFrom_success hrun]; rfl, rfl, ?_⟩
    rw [hc]
    exact Value.letter?_eq_some.mp (Value.letter_eq_ok.mp hv)
  · intro w hw hc
    obtain ⟨f, hrun, hf⟩ := htoken.refused w hw hc
    exact ⟨f, sequenceFrom_failure hrun, hf⟩
  · intro hend
    obtain ⟨f, hrun, hf⟩ := htoken.ended hend
    exact ⟨f, sequenceFrom_failure hrun, hf⟩

/-- One alternative for each character of the set. -/
theorem takesIf_choiceFrom {ps : List Runner} {letters : Text}
    (h : List.Forall₂ (fun p c => (p pos).TakesIf src (fun w => w.bare = .text [c]) pos)
      ps letters) :
    ∀ notes : List Note, (choiceFrom pos ps notes).TakesIf src (Value.IsIn letters) pos := by
  induction h with
  | nil =>
    intro notes
    refine ⟨?_, fun _ _ _ => ⟨_, rfl, rfl⟩, fun _ => ⟨_, rfl, rfl⟩⟩
    intro v _ hin
    obtain ⟨c, hc, -⟩ := hin
    cases hc
  | @cons p c ps letters hp _ ih =>
    intro notes
    refine ⟨?_, ?_, ?_⟩
    · intro v hv hin
      by_cases hc : v.bare = .text [c]
      · obtain ⟨res, hrun, hres⟩ := hp.accepted v hv hc
        exact ⟨res, choiceFrom_success hrun, hres⟩
      · obtain ⟨f, hrun, -⟩ := hp.refused v hv hc
        rw [choiceFrom_unmoved hrun]
        obtain ⟨d, hd, hbare⟩ := hin
        rcases List.mem_cons.mp hd with rfl | hd
        · exact absurd hbare hc
        · exact (ih _).accepted v hv ⟨d, hd, hbare⟩
    · intro v hv hin
      obtain ⟨f, hrun, -⟩ := hp.refused v hv fun hc => hin ⟨c, List.mem_cons_self, hc⟩
      rw [choiceFrom_unmoved hrun]
      refine (ih _).refused v hv ?_
      intro hrest
      obtain ⟨d, hd, hbare⟩ := hrest
      exact hin ⟨d, List.mem_cons_of_mem c hd, hbare⟩
    · intro hend
      obtain ⟨f, hrun, -⟩ := hp.ended hend
      rw [choiceFrom_unmoved hrun]
      exact (ih _).ended hend

theorem takesIf_trie (letters : Text) :
    (trie src (Trie.ofTexts (letters.map fun c => [c])) pos).TakesIf src (Value.IsIn letters)
      pos := by
  have hpos : -(src.length : Int) ≤ pos := by omega
  have hholds : ∀ word, (Trie.ofTexts (letters.map fun c => [c])).Holds word ↔
      ∃ c ∈ letters, [c] = word := by
    intro word
    rw [Trie.holds_ofTexts, List.mem_map]
  rcases trie_run (Trie.ofTexts (letters.map fun c => [c])) hpos with
    ⟨word, hword, hreads, -, hrun⟩ | ⟨hnone, hrun⟩
  · obtain ⟨c, hc, rfl⟩ := (hholds word).mp hword
    obtain ⟨v, hv, hbare⟩ := Sequence.reads_singleton.mp hreads
    have hitem : src.item? pos = some v := Except.ok.inj hv
    refine ⟨?_, ?_, ?_⟩
    · intro w hw _
      rw [hitem] at hw
      cases hw
      exact ⟨_, hrun, rfl, hbare.symm⟩
    · intro w hw hin
      rw [hitem] at hw
      cases hw
      exact absurd ⟨c, hc, hbare⟩ hin
    · intro hend
      rw [hitem] at hend
      cases hend
  · refine ⟨?_, fun _ _ _ => ⟨_, hrun, rfl⟩, fun _ => ⟨_, hrun, rfl⟩⟩
    intro v hv hin
    obtain ⟨c, hc, hbare⟩ := hin
    have hreads : src.Reads pos [c] :=
      Sequence.reads_singleton.mpr ⟨v, congrArg Except.ok hv, hbare⟩
    exact absurd hreads (hnone [c] ((hholds [c]).mpr ⟨c, hc, rfl⟩))

end Runner

/-- A parser is built and takes the items that are accepted, from every position of every source. -/
def Grammar.BuildsTaking (g : Grammar) (accepts : Value → Prop) : Prop :=
  ∃ p, g.build.result = .ok p ∧
    ∀ (src : Sequence) (pos : Nat), (p.run src pos).TakesIf src accepts pos

theorem takesIf_test (test : Test) (report : Report) (src : Sequence) (pos : Nat) :
    ((Parser.token test report).run src pos).TakesIf src (fun v => test.accepts v = true) pos := by
  refine Runner.takesIf_token ?_
  intro v
  cases report with
  | expect what => rfl
  | plain msg => rfl

section Sets

variable (set : Literal)

theorem oneOf_buildsTaking : (Grammar.oneOf set.written).BuildsTaking (Value.IsIn set.letters) := by
  refine ⟨_, Grammar.build_oneOf_eq_ok.mpr ⟨set.letters, set.spelled, rfl⟩, ?_⟩
  intro src pos
  have htest := takesIf_test (.within set.letters)
    (.expect s!"one of '{String.ofList set.letters}'") src pos
  exact htest.congr fun _ => Test.isOneOf_iff

theorem noneOf_buildsTaking :
    (Grammar.noneOf set.written).BuildsTaking fun v => ¬ v.IsIn set.letters := by
  refine ⟨_, Grammar.build_noneOf_eq_ok.mpr ⟨set.letters, set.spelled, rfl⟩, ?_⟩
  intro src pos
  have htest := takesIf_test (.outside set.letters)
    (.expect s!"none of '{String.ofList set.letters}'") src pos
  refine htest.congr ?_
  intro v
  rw [Test.accepts, Bool.not_eq_true', ← Bool.not_eq_true, Test.isOneOf_iff]

theorem characters_build {vs : List Value} {letters : Text}
    (h : List.Forall₂ (fun v c => v.letter = .ok c) vs letters) :
    ∃ ps, Grammar.Builds (vs.map .character) ps ∧ ∀ (src : Sequence) (pos : Nat),
      List.Forall₂ (fun p c => (p pos).TakesIf src (fun w => w.bare = .text [c]) pos)
        (ps.map (Parser.run src)) letters := by
  induction h with
  | nil => exact ⟨[], .nil, fun _ _ => .nil⟩
  | @cons v c vs letters hv _ ih =>
    obtain ⟨ps, hbuilds, htakes⟩ := ih
    refine ⟨_ :: ps, .cons (Grammar.build_character_eq_ok.mpr ⟨c, hv, rfl⟩) hbuilds, ?_⟩
    intro src pos
    exact .cons (Runner.takesIf_character hv _ fun _ => rfl) (htakes src pos)

theorem choice_buildsTaking : (Grammar.choice (set.written.toItems.map .character)).BuildsTaking
    (Value.IsIn set.letters) := by
  obtain ⟨ps, hbuilds, htakes⟩ := characters_build (Sequence.spell_eq_ok.mp set.spelled)
  refine ⟨.choice ps, Grammar.build_choice_eq_ok.mpr ⟨ps, hbuilds, rfl⟩, ?_⟩
  intro src pos
  rw [Parser.run_choice]
  exact Runner.takesIf_choiceFrom (htakes src pos) []

theorem ofWords_characters {vs : List Value} {letters : Text}
    (h : List.Forall₂ (fun v c => v.letter = .ok c) vs letters) :
    Trie.ofWords (vs.map fun v => .items [v]) = .ok (Trie.ofTexts (letters.map fun c => [c])) := by
  refine Trie.ofWords_of_spell ?_
  rw [List.forall₂_map_left_iff, List.forall₂_map_right_iff]
  refine h.imp ?_
  intro v c hv
  exact Sequence.spell_eq_ok.mpr (.cons hv .nil)

theorem trie_buildsTaking :
    (Grammar.trie (set.written.toItems.map fun v => .items [v])).BuildsTaking
      (Value.IsIn set.letters) := by
  have hwords := ofWords_characters (Sequence.spell_eq_ok.mp set.spelled)
  refine ⟨_, Grammar.build_trie_eq_ok.mpr ⟨_, hwords, rfl⟩, ?_⟩
  intro src pos
  exact Runner.takesIf_trie set.letters

end Sets

/-- The test for a set of characters, the choice between them and the trie of them take the same items
over the same range and yield the same once unboxed, and the test for the complement takes exactly the
other items. At the end all of them fail, and each failure is at the position and does not move. -/
theorem character_sets_agree (set : Literal) (src : Sequence) (pos : Nat) :
    ∃ within between words outside,
      (Grammar.oneOf set.written).build.result = .ok within ∧
      (Grammar.choice (set.written.toItems.map .character)).build.result = .ok between ∧
      (Grammar.trie (set.written.toItems.map fun v => .items [v])).build.result = .ok words ∧
      (Grammar.noneOf set.written).build.result = .ok outside ∧
      ((∃ v, src.item? pos = some v ∧ v.IsIn set.letters ∧
          (within.run src pos).Takes pos v ∧ (between.run src pos).Takes pos v ∧
          (words.run src pos).Takes pos v ∧ (outside.run src pos).FailsAt pos) ∨
        (∃ v, src.item? pos = some v ∧ ¬ v.IsIn set.letters ∧
          (within.run src pos).FailsAt pos ∧ (between.run src pos).FailsAt pos ∧
          (words.run src pos).FailsAt pos ∧ (outside.run src pos).Takes pos v) ∨
        (src.length ≤ pos ∧
          (within.run src pos).FailsAt pos ∧ (between.run src pos).FailsAt pos ∧
          (words.run src pos).FailsAt pos ∧ (outside.run src pos).FailsAt pos)) := by
  obtain ⟨within, hwithin, hin⟩ := oneOf_buildsTaking set
  obtain ⟨between, hbetween, halt⟩ := choice_buildsTaking set
  obtain ⟨words, hwords, htrie⟩ := trie_buildsTaking set
  obtain ⟨outside, houtside, hout⟩ := noneOf_buildsTaking set
  refine ⟨within, between, words, outside, hwithin, hbetween, hwords, houtside, ?_⟩
  specialize hin src pos
  specialize halt src pos
  specialize htrie src pos
  specialize hout src pos
  cases hitem : src.item? pos with
  | none =>
    right
    right
    exact ⟨Sequence.item?_eq_none.mp hitem, hin.ended hitem, halt.ended hitem, htrie.ended hitem,
      hout.ended hitem⟩
  | some v =>
    by_cases hv : v.IsIn set.letters
    · left
      exact ⟨v, rfl, hv, hin.accepted v hitem hv, halt.accepted v hitem hv,
        htrie.accepted v hitem hv, hout.refused v hitem fun hnot => hnot hv⟩
    · right
      left
      exact ⟨v, rfl, hv, hin.refused v hitem hv, halt.refused v hitem hv, htrie.refused v hitem hv,
        hout.accepted v hitem hv⟩

end Backtrack
