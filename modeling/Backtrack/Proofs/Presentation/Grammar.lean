import Backtrack.Grammar
import Backtrack.Proofs.Presentation.Agreement

/-!
# Grammars that present the same texts

The literals, words, characters and character sets of a grammar can be presented in many ways, too.
Building grammars that differ in this only gives parsers that run alike on all presentations of a
source. A literal yields itself as it was written, so their values may be two presentations of one
literal.
-/

namespace Backtrack

/-- Values that are equal once unboxed, or a literal in two presentations of which one at least is a
list. -/
inductive Value.SameData : Value → Value → Prop
  | unboxed {v w : Value} (h : v.SameUnboxed w) : SameData v w
  | written {s t : Sequence} (h : s.SameText t) (hlist : ∃ vs, s = .items vs ∨ t = .items vs) :
    SameData s.toValue t.toValue

/-- Of a literal in two presentations that are both texts the plain text is the same. -/
theorem Sequence.SameText.toValue {s t : Sequence} (h : s.SameText t) :
    s.toValue.SameData t.toValue := by
  obtain ⟨letters, hs, ht⟩ := h.spell
  have htexts : ∀ {u : Sequence}, u.spell = .ok letters →
      (∃ vs, u = .items vs) ∨ u.toValue.bare = .text letters := by
    intro u hu
    cases u with
    | items vs => exact .inl ⟨vs, rfl⟩
    | text t =>
      cases hu
      exact .inr rfl
    | tagged t =>
      cases hu
      exact .inr rfl
    | wrapped kind t =>
      cases hu
      exact .inr (Value.bare_wrapped kind letters)
  rcases htexts hs with ⟨vs, hvs⟩ | hs
  · exact .written h ⟨vs, .inl hvs⟩
  rcases htexts ht with ⟨vs, hvs⟩ | ht
  · exact .written h ⟨vs, .inr hvs⟩
  · exact .unboxed (hs.trans ht.symm)

/-- The grammars differ only in how their characters, literals, words and character sets are
presented. -/
inductive Grammar.Alike : Grammar → Grammar → Prop
  | same (g : Grammar) : Alike g g
  | character {v w : Value} (h : v.SameLetter w) : Alike (.character v) (.character w)
  | string {s t : Sequence} (h : s.SameText t) : Alike (.string s) (.string t)
  | trie {words words' : List Sequence} (h : List.Forall₂ Sequence.SameText words words') :
    Alike (.trie words) (.trie words')
  | oneOf {s t : Sequence} (h : s.SameText t) : Alike (.oneOf s) (.oneOf t)
  | noneOf {s t : Sequence} (h : s.SameText t) : Alike (.noneOf s) (.noneOf t)
  | sequence {gs gs' : List Grammar} (h : List.Forall₂ Alike gs gs') :
    Alike (.sequence gs) (.sequence gs')
  | choice {gs gs' : List Grammar} (h : List.Forall₂ Alike gs gs') : Alike (.choice gs) (.choice gs')
  | attempt {g g' : Grammar} (h : Alike g g') : Alike (.attempt g) (.attempt g')
  | label (name : String) {g g' : Grammar} (h : Alike g g') : Alike (.label name g) (.label name g')
  | anonymous {g g' : Grammar} (h : Alike g g') : Alike (.anonymous g) (.anonymous g')

/-- The parsers have the same name, and their runs agree unless they seek. -/
structure Parser.RunsAlike (p q : Parser) : Prop where
  name : p.name = q.name
  runs : p.lacks .seek = true → ∀ src src' : Sequence, src.SameText src' →
    Runner.Agree Value.SameData src.length (p.run src) (q.run src')

namespace Parser.RunsAlike

open Runner

theorem sameData_of_unboxed (v w : Value) (h : v.SameUnboxed w) : v.SameData w := .unboxed h

theorem refl (p : Parser) : p.RunsAlike p :=
  ⟨rfl, fun hp _ _ hsrc => agree_run hsrc sameData_of_unboxed hp⟩

theorem always {v w : Value} (h : v.bare = w.bare) (type : Option String) :
    RunsAlike (.always v type) (.always w type) :=
  ⟨rfl, fun _ _ _ _ => agree_always (.unboxed h) type⟩

theorem literal {l l' : Literal} (hletters : l.letters = l'.letters)
    (hwritten : l.written.SameText l'.written) : RunsAlike (.literal l) (.literal l') := by
  refine ⟨?_, ?_⟩
  · simp only [Parser.name, hletters]
  · intro _ src src' hsrc
    exact agree_literal hsrc sameData_of_unboxed hletters hwritten.toValue

/-- The runners of parsers without seeks that run alike. -/
theorem runners {ps qs : List Parser} (h : List.Forall₂ RunsAlike ps qs)
    (hps : ∀ p ∈ ps, p.lacks .seek = true) {src src' : Sequence} (hsrc : src.SameText src') :
    List.Forall₂ (Agree Value.SameData src.length) (ps.map (run src)) (qs.map (run src')) := by
  rw [List.forall₂_map_left_iff, List.forall₂_map_right_iff]
  have hboth := (List.forall₂_and_left (p := fun p => p.lacks .seek = true) ps qs).mpr ⟨hps, h⟩
  exact hboth.imp fun p q hpq => hpq.2.runs hpq.1 src src' hsrc

theorem sequence {first first' : Parser} {rest rest' : List Parser}
    (h : List.Forall₂ RunsAlike (first :: rest) (first' :: rest')) :
    RunsAlike (.sequence first rest) (.sequence first' rest') := by
  refine ⟨rfl, ?_⟩
  intro hp src src' hsrc
  have hparts := lacks_sequence.mp hp
  rw [run_sequence, run_sequence]
  apply agree_sequence sameData_of_unboxed
  · exact runners h hparts hsrc
  · exact accounts_runs hparts src

theorem choice {ps qs : List Parser} (h : List.Forall₂ RunsAlike ps qs) :
    RunsAlike (.choice ps) (.choice qs) := by
  refine ⟨rfl, ?_⟩
  intro hp src src' hsrc
  rw [run_choice, run_choice]
  exact agree_choice (runners h (lacks_choice.mp hp) hsrc)

theorem attempt {p q : Parser} (h : p.RunsAlike q) : RunsAlike (.attempt p) (.attempt q) :=
  ⟨rfl, fun hp src src' hsrc => agree_attempt (h.runs hp src src' hsrc)⟩

theorem label (name : String) {p q : Parser} (h : p.RunsAlike q) :
    RunsAlike (.label name p) (.label name q) := ⟨rfl, fun hp => h.runs hp⟩

theorem anonymous {p q : Parser} (h : p.RunsAlike q) :
    RunsAlike (.anonymous p) (.anonymous q) := ⟨rfl, fun hp => h.runs hp⟩

end Parser.RunsAlike

/-- Both constructions record the same events and give related results or find the same misuse. -/
inductive Build.Agree {α : Type} (R : α → α → Prop) : Build α → Build α → Prop
  | ok (events : List Event) {a a' : α} (h : R a a') : Agree R ⟨events, .ok a⟩ ⟨events, .ok a'⟩
  | error (events : List Event) (m : Misuse) : Agree R ⟨events, .error m⟩ ⟨events, .error m⟩

namespace Build.Agree

variable {α β : Type} {R : α → α → Prop} {S : β → β → Prop}

theorem refl (hR : ∀ a, R a a) (b : Build α) : Agree R b b := by
  rcases b with ⟨events, _ | a⟩
  · exact .error events _
  · exact .ok events (hR a)

theorem bind {b b' : Build α} {f f' : α → Build β} (h : Agree R b b')
    (hf : ∀ a a', R a a' → Agree S (f a) (f' a')) : Agree S (b >>= f) (b' >>= f') := by
  cases h with
  | error events m => exact .error events m
  | ok events ha =>
    have hnext := hf _ _ ha
    simp only [Bind.bind]
    generalize f _ = c at hnext
    generalize f' _ = c' at hnext
    cases hnext with
    | error more m => exact .error (events ++ more) m
    | ok more hb => exact .ok (events ++ more) hb

theorem pure {a a' : α} (h : R a a') : Agree R (Pure.pure a) (Pure.pure a') := .ok [] h

end Build.Agree

open Backtrack.Parser (RunsAlike)

namespace Grammar

theorem mapM_spell_congr {words words' : List Sequence}
    (h : List.Forall₂ Sequence.SameText words words') :
    words.mapM Sequence.spell = words'.mapM Sequence.spell := by
  induction h with
  | nil => rfl
  | cons hword _ ih =>
    obtain ⟨letters, hs, ht⟩ := hword.spell
    rw [List.mapM_cons, List.mapM_cons, hs, ht, ih]

theorem build_character {v w : Value} (h : v.SameLetter w) :
    Build.Agree RunsAlike (Grammar.character v).build (Grammar.character w).build := by
  obtain ⟨c, hv, hw⟩ := h.letter_eq
  simp only [build, Parser.character, hv, hw]
  refine .ok [] (.label _ (.sequence ?_))
  exact .cons (.refl _) (.cons (.always h.bare_eq _) .nil)

theorem build_string {s t : Sequence} (h : s.SameText t) :
    Build.Agree RunsAlike (Grammar.string s).build (Grammar.string t).build := by
  obtain ⟨letters, hs, ht⟩ := h.spell
  rw [build, build, Parser.string, Parser.string, Literal.ofSequence_of_spell hs,
    Literal.ofSequence_of_spell ht]
  exact .ok [] (.literal rfl h)

theorem buildAll_agree {gs gs' : List Grammar} (h : List.Forall₂ Alike gs gs')
    (hgs : ∀ g ∈ gs, ∀ g', g.Alike g' → Build.Agree RunsAlike g.build g'.build) :
    Build.Agree (List.Forall₂ RunsAlike) (buildAll gs) (buildAll gs') := by
  induction h with
  | nil => exact .ok [] .nil
  | cons hg _ ih =>
    rw [buildAll, buildAll]
    refine (hgs _ List.mem_cons_self _ hg).bind ?_
    intro p q hp
    refine (ih fun g hmem => hgs g (List.mem_cons_of_mem _ hmem)).bind ?_
    intro ps qs hps
    exact .pure (.cons hp hps)

theorem ofSequence_agree {ps qs : List Parser} (h : List.Forall₂ RunsAlike ps qs) :
    Build.Agree RunsAlike (Build.ofExcept (Parser.ofSequence ps))
      (Build.ofExcept (Parser.ofSequence qs)) := by
  cases h with
  | nil => exact .error [] .emptySequence
  | cons hp hps => exact .ok [] (.sequence (.cons hp hps))

/-- Building grammars that are alike gives parsers that run alike. -/
theorem build_agree {g g' : Grammar} (h : g.Alike g') :
    Build.Agree RunsAlike g.build g'.build := by
  induction g generalizing g' with
  | step g ih =>
    cases h with
    | same => exact .refl RunsAlike.refl _
    | character h => exact build_character h
    | string h => exact build_string h
    | trie h =>
      simp only [build, Parser.ofWords, Trie.ofWords, mapM_spell_congr h]
      exact .refl RunsAlike.refl _
    | oneOf h =>
      obtain ⟨letters, hs, ht⟩ := h.spell
      simp only [build, Parser.oneOf, hs, ht]
      exact .refl RunsAlike.refl _
    | noneOf h =>
      obtain ⟨letters, hs, ht⟩ := h.spell
      simp only [build, Parser.noneOf, hs, ht]
      exact .refl RunsAlike.refl _
    | sequence h =>
      rw [build, build]
      exact (buildAll_agree h fun g hg g' hgg' => ih g hg hgg').bind fun ps qs hps =>
        ofSequence_agree hps
    | choice h =>
      rw [build, build]
      exact (buildAll_agree h fun g hg g' hgg' => ih g hg hgg').bind fun ps qs hps =>
        .pure (.choice hps)
    | attempt h =>
      rw [build, build]
      exact (ih _ List.mem_cons_self h).bind fun p q hp => .pure hp.attempt
    | label name h =>
      rw [build, build]
      exact (ih _ List.mem_cons_self h).bind fun p q hp => .pure (hp.label name)
    | anonymous h =>
      rw [build, build]
      exact (ih _ List.mem_cons_self h).bind fun p q hp => .pure hp.anonymous

end Grammar

/-- A parser without seeks runs and parses alike on all presentations of a source, with values that
are equal once unboxed. So does the parser of a grammar that presents its own texts differently, up
to the presentation of a literal that it yields. -/
theorem run_independent_of_presentation {g g' : Grammar} (hg : g.Alike g') {p : Parser}
    (hp : g.build.result = .ok p) (hseek : p.lacks .seek = true) :
    ∃ q, g'.build.result = .ok q ∧
      ∀ src src' : Sequence, src.SameText src' → ∀ pos : Int, -(src.length : Int) ≤ pos →
        (Run.Agree Value.SameUnboxed (p.run src pos) (p.run src' pos) ∧
          Parse.Agree Value.SameUnboxed (p.parse src pos) (p.parse src' pos)) ∧
        (Run.Agree Value.SameData (p.run src pos) (q.run src' pos) ∧
          Parse.Agree Value.SameData (p.parse src pos) (q.parse src' pos)) := by
  have hbuilds := Grammar.build_agree hg
  generalize g.build = b at hbuilds hp
  generalize g'.build = b' at hbuilds
  cases hbuilds with
  | error events m => cases hp
  | @ok events p q hpq =>
    cases hp
    refine ⟨q, rfl, ?_⟩
    intro src src' hsrc pos hpos
    have hsame : Run.Agree Value.SameUnboxed (p.run src pos) (p.run src' pos) :=
      Parser.agree_run hsrc (fun _ _ h => h) hseek pos hpos
    have hother := hpq.runs hseek src src' hsrc pos hpos
    exact ⟨⟨hsame, Parser.agree_parse rfl hsrc hsame⟩,
      hother, Parser.agree_parse hpq.name hsrc hother⟩

/-- The literal `ab` in boxes, at the start of a wrapped text that is given from the end. -/
theorem run_independent_of_presentation_boxed :
    (Grammar.attempt (.string (.text ['a', 'b']))).Alike
      (.attempt (.string (.items [.box 0 (.text ['a']), .wrapped .plain ['b']]))) ∧
    (Grammar.attempt (.string (.text ['a', 'b']))).build.result =
      .ok (.attempt (.literal (.ofText ['a', 'b']))) ∧
    (Parser.attempt (.literal (.ofText ['a', 'b']))).lacks .seek = true ∧
    (Sequence.text ['a', 'b']).SameText (.wrapped .plain ['a', 'b']) ∧ -(2 : Int) ≤ -2 ∧
    ∃ q, (Grammar.attempt (.string (.items
        [.box 0 (.text ['a']), .wrapped .plain ['b']]))).build.result = .ok q ∧
      Run.Agree Value.SameData
        ((Parser.attempt (.literal (.ofText ['a', 'b']))).run (.text ['a', 'b']) (-2))
        (q.run (.wrapped .plain ['a', 'b']) (-2)) := by
  have hsrc : (Sequence.text ['a', 'b']).SameText (.wrapped .plain ['a', 'b']) :=
    .cons ⟨'a', rfl, rfl⟩ (.cons ⟨'b', rfl, rfl⟩ .nil)
  have hliteral : (Sequence.text ['a', 'b']).SameText
      (.items [.box 0 (.text ['a']), .wrapped .plain ['b']]) :=
    .cons ⟨'a', rfl, rfl⟩ (.cons ⟨'b', rfl, rfl⟩ .nil)
  have hg : (Grammar.attempt (.string (.text ['a', 'b']))).Alike
      (.attempt (.string (.items [.box 0 (.text ['a']), .wrapped .plain ['b']]))) :=
    .attempt (.string hliteral)
  have hp : (Grammar.attempt (.string (.text ['a', 'b']))).build.result =
      .ok (.attempt (.literal (.ofText ['a', 'b']))) := rfl
  have hpos : -(2 : Int) ≤ -2 := by decide
  obtain ⟨q, hq, hall⟩ := run_independent_of_presentation hg hp rfl
  exact ⟨hg, hp, rfl, hsrc, hpos, q, hq, (hall _ _ hsrc (-2) hpos).2.1⟩

/-- A literal yields itself as it was written, and unboxing does not make a text of a list. So the
values of `ab` as a text and as a list of two characters are not equal once unboxed. -/
theorem literal_value_shows_presentation :
    (Grammar.string (.text ['a', 'b'])).Alike (.string (.items [.text ['a'], .text ['b']])) ∧
    ∃ p q, (Grammar.string (.text ['a', 'b'])).build.result = .ok p ∧
      (Grammar.string (.items [.text ['a'], .text ['b']])).build.result = .ok q ∧
      p.lacks .seek = true ∧
      p.run (.text ['a', 'b']) 0 =
        ⟨.success (.spanning (some "string") 0 2 (.text ['a', 'b'])), 2⟩ ∧
      q.run (.text ['a', 'b']) 0 =
        ⟨.success (.spanning (some "string") 0 2 (.list [.text ['a'], .text ['b']])), 2⟩ ∧
      ¬ Run.Agree Value.SameUnboxed (p.run (.text ['a', 'b']) 0)
        (q.run (.text ['a', 'b']) 0) := by
  have hletters : (Sequence.text ['a', 'b']).SameText (.items [.text ['a'], .text ['b']]) :=
    .cons ⟨'a', rfl, rfl⟩ (.cons ⟨'b', rfl, rfl⟩ .nil)
  refine ⟨.string hletters, .literal (.ofText ['a', 'b']),
    .literal ⟨.items [.text ['a'], .text ['b']], ['a', 'b'], rfl⟩, rfl, rfl, rfl, rfl, rfl, ?_⟩
  intro h
  cases h with
  | success hr _ => cases hr.value

end Backtrack
