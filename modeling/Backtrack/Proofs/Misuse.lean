import Backtrack.Parser.Parse
import Backtrack.Proofs.Building
import Backtrack.Proofs.Decision
import Backtrack.Proofs.Position
import Backtrack.Proofs.Presentation.Text

/-!
# Misuse is found by building

A grammar has demands: that an item is a character, or that a sequence has a part. Building looks at
them in order and gives up at the first one that is not met. A parser that has been built without
seeks and raises does not fault from any position that is not before the first item, since it never
goes back behind its start. What it reports can be shown, too.
-/

namespace Backtrack

inductive Demand
  /-- The item is one character once unboxed. -/
  | character (v : Value)
  /-- A sequence of so many parts has one at least. -/
  | parts (count : Nat)

/-- The misuse that it is not to meet the demand. -/
def Demand.misuse? : Demand → Option Misuse
  | .character v =>
    match v.bare with
    | .text [_] => none
    | _ => some (.notACharacter v)
  | .parts count => if count = 0 then some .emptySequence else none

namespace Sequence

def demands (s : Sequence) : List Demand := s.toItems.map Demand.character

end Sequence

namespace Grammar

mutual

/-- All demands in order of construction: the parts from left to right, and then the whole. -/
def demands : Grammar → List Demand
  | .character v => [.character v]
  | .string s => s.demands
  | .trie words => words.flatMap Sequence.demands
  | .oneOf s => s.demands
  | .noneOf s => s.demands
  | .sequence parts => demandsAll parts ++ [.parts parts.length]
  | .choice alternatives => demandsAll alternatives
  | .attempt body => demands body
  | .label _ body => demands body
  | .anonymous body => demands body
  | _ => []
termination_by structural g => g

def demandsAll : List Grammar → List Demand
  | [] => []
  | g :: rest => demands g ++ demandsAll rest
termination_by structural gs => gs

end

end Grammar

/-- A construction is given up for the first demand that is not met, and for no other reason. -/
def Settles {α : Type} (demands : List Demand) (result : Except Misuse α) : Prop :=
  ∀ m, result = .error m ↔ demands.findSome? Demand.misuse? = some m

namespace Settles

variable {α β : Type} {ds es : List Demand} {result : Except Misuse α}

theorem ok (a : α) : Settles [] (.ok a : Except Misuse α) := by
  intro m
  simp

theorem ok_iff (h : Settles ds result) :
    (∃ a, result = .ok a) ↔ ∀ d ∈ ds, d.misuse? = none := by
  rw [← List.findSome?_eq_none_iff]
  cases result with
  | error m => simp [(h m).mp rfl]
  | ok a =>
    cases hfirst : ds.findSome? Demand.misuse? with
    | none => simp
    | some m => cases (h m).mpr hfirst

/-- What comes behind is looked at only if all demands before are met. -/
theorem bind {next : α → Except Misuse β} (h : Settles ds result)
    (hnext : ∀ a, result = .ok a → Settles es (next a)) : Settles (ds ++ es) (result >>= next) := by
  intro m
  rw [List.findSome?_append]
  cases result with
  | error e =>
    rw [(h e).mp rfl]
    simp [Bind.bind, Except.bind]
  | ok a =>
    have hmet : ds.findSome? Demand.misuse? = none :=
      List.findSome?_eq_none_iff.mpr (h.ok_iff.mp ⟨a, rfl⟩)
    rw [hmet]
    exact hnext a rfl m

theorem map {f : α → β} (h : Settles ds result) : Settles ds (do return f (← result)) := by
  have hbind : Settles (ds ++ []) (do return f (← result)) := h.bind fun a _ => ok (f a)
  rwa [List.append_nil] at hbind

theorem mapM {γ : Type} {demandsOf : γ → List Demand} {check : γ → Except Misuse α}
    (h : ∀ x, Settles (demandsOf x) (check x)) (xs : List γ) :
    Settles (xs.flatMap demandsOf) (xs.mapM check) := by
  induction xs with
  | nil => exact ok []
  | cons x xs ih =>
    rw [List.flatMap_cons, List.mapM_cons]
    exact (h x).bind fun a _ => ih.map

end Settles

theorem settles_letter (v : Value) : Settles [.character v] v.letter := by
  intro m
  rw [Value.letter_eq_error, List.findSome?_singleton, Demand.misuse?]
  split
  · next c hc => simp [Value.letter?_eq_some.mpr hc]
  · next hother =>
    have hnone : v.letter? = none := by
      rw [Option.eq_none_iff_forall_ne_some]
      intro c hc
      exact hother c (Value.letter?_eq_some.mp hc)
    simp [hnone, eq_comm]

theorem settles_spell (s : Sequence) : Settles s.demands s.spell := by
  have hdemands : s.demands = s.toItems.flatMap fun v => [Demand.character v] := by
    rw [Sequence.demands, List.map_eq_flatMap]
  rw [hdemands, Sequence.spell_eq_mapM]
  exact Settles.mapM settles_letter s.toItems

theorem settles_literal (s : Sequence) : Settles s.demands (Literal.ofSequence s) := by
  intro m
  rw [Literal.ofSequence_eq_error]
  exact settles_spell s m

theorem settles_ofWords (words : List Sequence) :
    Settles (words.flatMap Sequence.demands) (Trie.ofWords words) :=
  (Settles.mapM settles_spell words).map

theorem settles_ofSequence (ps : List Parser) :
    Settles [.parts ps.length] (Parser.ofSequence ps) := by
  intro m
  cases ps with
  | nil => simp [Parser.ofSequence, Demand.misuse?]
  | cons p ps => simp [Parser.ofSequence, Demand.misuse?]

namespace Build

variable {α β : Type} {ds es : List Demand} {b : Build α}

theorem settles_bind {f : α → Build β} (h : Settles ds b.result)
    (hf : ∀ a, b.result = .ok a → Settles es (f a).result) :
    Settles (ds ++ es) (b >>= f).result := by
  rw [result_bind]
  exact h.bind hf

theorem settles_map {f : α → β} (h : Settles ds b.result) :
    Settles ds (do return f (← b) : Build β).result := by
  have hbind : Settles (ds ++ []) (do return f (← b) : Build β).result :=
    settles_bind h fun a _ => Settles.ok (f a)
  rwa [List.append_nil] at hbind

end Build

namespace Grammar

theorem settles_buildAll {gs : List Grammar} (h : ∀ g ∈ gs, Settles g.demands g.build.result) :
    Settles (demandsAll gs) (buildAll gs).result := by
  induction gs with
  | nil => exact Settles.ok []
  | cons g gs ih =>
    obtain ⟨hg, hgs⟩ := List.forall_mem_cons.mp h
    rw [demandsAll, buildAll]
    exact Build.settles_bind hg fun p _ => Build.settles_map (ih hgs)

/-- Building gives up at the first demand of a grammar that is not met. -/
theorem settles_build (g : Grammar) : Settles g.demands g.build.result := by
  induction g with
  | step g ih =>
    cases g with
    | character v => exact (settles_letter v).map
    | string s => exact (settles_literal s).map
    | oneOf s => exact (settles_spell s).map
    | noneOf s => exact (settles_spell s).map
    | trie words =>
      have hroot : Settles (words.flatMap Sequence.demands)
          (Build.ofExcept (Trie.ofWords words)).result := settles_ofWords words
      have hparser : Settles (words.flatMap Sequence.demands ++ []) (Parser.ofWords words).result :=
        Build.settles_bind hroot fun root _ => Settles.ok (Parser.trie root)
      rwa [List.append_nil] at hparser
    | sequence gs =>
      rw [demands, build]
      refine Build.settles_bind (settles_buildAll ih) ?_
      intro ps hps
      rw [(buildAll_eq_ok.mp hps).length_eq]
      exact settles_ofSequence ps
    | choice gs => exact Build.settles_map (settles_buildAll ih)
    | attempt body => exact Build.settles_map (ih body List.mem_cons_self)
    | label name body => exact Build.settles_map (ih body List.mem_cons_self)
    | anonymous body => exact Build.settles_map (ih body List.mem_cons_self)
    | _ => exact Settles.ok _

end Grammar

end Backtrack
