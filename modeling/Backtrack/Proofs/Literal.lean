import Backtrack.Parser.Runner
import Backtrack.Proofs.Reading

/-!
# Literals

A literal succeeds if the source reads it. Otherwise it goes back to the start and reports the first
character that the source does not read, with the item that stands there.
-/

namespace Backtrack

/-- The source reads the word up to offset `i`, and there it has `found` in place of `c`: the null
item if it has ended. -/
structure Sequence.FirstMiss (src : Sequence) (pos : Int) (word : Text) (i : Nat) (c : Char)
    (found : Value) : Prop where
  char : word[i]? = some c
  reads : src.Reads pos (word.take i)
  found : src.peek (pos + i) = .ok none ∧ found = .null ∨
    src.peek (pos + i) = .ok (some found) ∧ found.bare ≠ .text [c]

namespace Sequence

theorem FirstMiss.not_reads {src : Sequence} {pos : Int} {word : Text} {i : Nat} {c : Char}
    {found : Value} (h : src.FirstMiss pos word i c found) : ¬ src.Reads pos word := by
  intro hreads
  obtain ⟨hi, hc⟩ := List.getElem?_eq_some_iff.mp h.char
  obtain ⟨v, hv, hletter⟩ := hreads i hi
  rw [hc] at hletter
  rcases h.found with ⟨hend, -⟩ | ⟨hitem, hne⟩
  · rw [hv] at hend
    cases hend
  · rw [hv] at hitem
    cases hitem
    exact hne hletter

theorem FirstMiss.cons {src : Sequence} {pos : Int} {word : Text} {i : Nat} {c d : Char}
    {v found : Value} (hv : src.peek pos = .ok (some v)) (hd : v.bare = .text [d])
    (h : src.FirstMiss (pos + 1) word i c found) :
    src.FirstMiss pos (d :: word) (i + 1) c found := by
  have hshift : pos + ((i + 1 : Nat) : Int) = pos + 1 + i := by omega
  refine ⟨?_, ?_, ?_⟩
  · rw [List.getElem?_cons_succ]
    exact h.char
  · rw [List.take_succ_cons, reads_cons]
    exact ⟨⟨v, hv, hd⟩, h.reads⟩
  · rw [hshift]
    exact h.found

/-- A miss is still the first one in a shorter word that reaches beyond it. -/
theorem FirstMiss.take {src : Sequence} {pos : Int} {word : Text} {i j : Nat} {c : Char}
    {found : Value} (h : src.FirstMiss pos word i c found) (hij : i < j) :
    src.FirstMiss pos (word.take j) i c found := by
  refine ⟨?_, ?_, h.found⟩
  · rw [List.getElem?_take_of_lt hij]
    exact h.char
  · rw [List.take_take, Nat.min_eq_left (Nat.le_of_lt hij)]
    exact h.reads

/-- There is only one first miss. -/
theorem FirstMiss.unique {src : Sequence} {pos : Int} {word : Text} {i j : Nat} {c d : Char}
    {found found' : Value} (h : src.FirstMiss pos word i c found)
    (h' : src.FirstMiss pos word j d found') : i = j ∧ c = d ∧ found = found' := by
  have hij : i = j := by
    rcases Nat.lt_trichotomy i j with hlt | heq | hlt
    · exact absurd h'.reads (h.take hlt).not_reads
    · exact heq
    · exact absurd h.reads (h'.take hlt).not_reads
  subst hij
  refine ⟨rfl, Option.some.inj (h.char.symm.trans h'.char), ?_⟩
  rcases h.found with ⟨hend, rfl⟩ | ⟨hitem, -⟩
  · rcases h'.found with ⟨-, rfl⟩ | ⟨hitem', -⟩
    · rfl
    · rw [hend] at hitem'
      cases hitem'
  · rcases h'.found with ⟨hend', -⟩ | ⟨hitem', -⟩
    · rw [hitem] at hend'
      cases hend'
    · rw [hitem] at hitem'
      exact Option.some.inj (Except.ok.inj hitem')

/-- Behind a word that is read, and whatever follows, a miss stays the first one. -/
theorem FirstMiss.append {src : Sequence} {pos : Int} {u w : Text} {i : Nat} {c : Char}
    {found : Value} (hu : src.Reads pos u) (h : src.FirstMiss (pos + u.length) w i c found)
    (v : Text) : src.FirstMiss pos (u ++ (w ++ v)) (u.length + i) c found := by
  obtain ⟨hi, -⟩ := List.getElem?_eq_some_iff.mp h.char
  have hplace : pos + ((u.length + i : Nat) : Int) = pos + u.length + i := by omega
  refine ⟨?_, ?_, ?_⟩
  · rw [List.getElem?_append_right (Nat.le_add_right _ _), Nat.add_sub_cancel_left,
      List.getElem?_append_left hi]
    exact h.char
  · rw [List.take_length_add_append, List.take_append_of_le_length (Nat.le_of_lt hi)]
    exact reads_append.mpr ⟨hu, h.reads⟩
  · rw [hplace]
    exact h.found

end Sequence

namespace Runner

variable {src : Sequence} {l : Literal}

theorem letter_of_item {c : Char} {index : Nat} {pos : Int} {v : Value}
    (hv : src.peek pos = .ok (some v)) (hc : v.bare = .text [c]) :
    letter src l c index pos = ⟨.success (.spanning none pos (pos + 1) v), pos + 1⟩ := by
  simp only [letter, token, hv]
  rw [if_pos (Value.sameChar_text.mpr hc)]

theorem letter_of_miss {c : Char} {index : Nat} {pos : Int} {found : Value}
    (h : src.peek pos = .ok none ∧ found = .null ∨
      src.peek pos = .ok (some found) ∧ found.bare ≠ .text [c]) :
    letter src l c index pos =
      ⟨.failure { pos, cause := .mismatch l index (String.singleton c) found }, pos⟩ := by
  rcases h with ⟨hend, rfl⟩ | ⟨hitem, hne⟩
  · simp only [letter, token, hend]
  · simp only [letter, token, hitem]
    rw [if_neg fun hsame => hne (Value.sameChar_text.mp hsame)]

/-- What is left of a literal from offset `index` on, behind the first `index` characters. -/
def lettersFrom (src : Sequence) (l : Literal) (word : Text) (index : Nat) : List Runner :=
  (word.zipIdx index).map (fun x => letter src l x.1 x.2) ++
    [always l.written.toValue (some "string")]

theorem lettersFrom_cons (c : Char) (word : Text) (index : Nat) :
    lettersFrom src l (c :: word) index =
      letter src l c index :: lettersFrom src l word (index + 1) := by
  simp [lettersFrom, List.zipIdx_cons]

theorem sequenceFrom_letters (start : Int) (word : Text) : ∀ (pos : Int) (index : Nat)
    (last : Result), -(src.length : Int) ≤ pos →
    (src.Reads pos word ∧
      sequenceFrom start (lettersFrom src l word index) last pos =
        ⟨.success (.spanning (some "string") start (pos + word.length) l.written.toValue),
          pos + word.length⟩) ∨
    ∃ i c found, src.FirstMiss pos word i c found ∧
      sequenceFrom start (lettersFrom src l word index) last pos =
        ⟨.failure { pos := pos + i,
                    cause := .mismatch l (index + i : Nat) (String.singleton c) found },
          pos + i⟩ := by
  induction word with
  | nil =>
    intro pos index last _
    refine .inl ⟨Sequence.reads_nil src pos, ?_⟩
    have hstop : pos + (([] : Text).length : Int) = pos := by simp
    rw [hstop]
    rfl
  | cons c word ih =>
    intro pos index last hpos
    rw [lettersFrom_cons]
    by_cases hread : ∃ v, src.peek pos = .ok (some v) ∧ v.bare = .text [c]
    · obtain ⟨v, hv, hc⟩ := hread
      rw [sequenceFrom_success (letter_of_item hv hc)]
      rcases ih (pos + 1) (index + 1) (.spanning none pos (pos + 1) v) (by omega) with
        ⟨hreads, hrun⟩ | ⟨i, d, found, hmiss, hrun⟩
      · have hstop : pos + 1 + word.length = pos + ((c :: word).length : Int) := by
          rw [List.length_cons]
          omega
        rw [hstop] at hrun
        exact .inl ⟨Sequence.reads_cons.mpr ⟨⟨v, hv, hc⟩, hreads⟩, hrun⟩
      · have hplace : pos + 1 + i = pos + ((i + 1 : Nat) : Int) := by omega
        have hindex : index + 1 + i = index + (i + 1) := by omega
        rw [hplace, hindex] at hrun
        exact .inr ⟨i + 1, d, found, hmiss.cons hv hc, hrun⟩
    · obtain ⟨item, hitem⟩ := Sequence.peek_isOk hpos
      have hfound : ∃ found, src.peek pos = .ok none ∧ found = .null ∨
          src.peek pos = .ok (some found) ∧ found.bare ≠ .text [c] := by
        cases item with
        | none => exact ⟨.null, .inl ⟨hitem, rfl⟩⟩
        | some v => exact ⟨v, .inr ⟨hitem, fun hc => hread ⟨v, hitem, hc⟩⟩⟩
      obtain ⟨found, hfound⟩ := hfound
      have hplace : pos + ((0 : Nat) : Int) = pos := by omega
      refine .inr ⟨0, c, found, ⟨rfl, Sequence.reads_nil src pos, by rwa [hplace]⟩, ?_⟩
      rw [sequenceFrom_failure (letter_of_miss hfound), hplace, Nat.add_zero]

/-- A literal takes exactly its characters, or fails without moving at the first one missed. -/
theorem literal_run (l : Literal) {pos : Int} (h : -(src.length : Int) ≤ pos) :
    (src.Reads pos l.letters ∧
      literal src l pos =
        ⟨.success (.spanning (some "string") pos (pos + l.letters.length) l.written.toValue),
          pos + l.letters.length⟩) ∨
    ∃ i c found, src.FirstMiss pos l.letters i c found ∧
      literal src l pos =
        ⟨.failure { pos := pos + i, cause := .mismatch l i (String.singleton c) found }, pos⟩ := by
  rcases sequenceFrom_letters (l := l) pos l.letters pos 0 { type := none, value := .null } h with
    ⟨hreads, hrun⟩ | ⟨i, c, found, hmiss, hrun⟩
  · exact .inl ⟨hreads, attempt_success hrun⟩
  · rw [Nat.zero_add] at hrun
    exact .inr ⟨i, c, found, hmiss, attempt_failure hrun⟩

theorem literal_of_miss {pos : Int} {i : Nat} {c : Char} {found : Value}
    (h : -(src.length : Int) ≤ pos) (hmiss : src.FirstMiss pos l.letters i c found) :
    literal src l pos =
      ⟨.failure { pos := pos + i, cause := .mismatch l i (String.singleton c) found }, pos⟩ := by
  rcases literal_run l h with ⟨hreads, _⟩ | ⟨j, d, found', hmiss', hrun⟩
  · exact absurd hreads hmiss.not_reads
  · obtain ⟨rfl, rfl, rfl⟩ := hmiss.unique hmiss'
    exact hrun

theorem literal_ofText_of_reads {w : Text} {pos : Int} (h : -(src.length : Int) ≤ pos)
    (hreads : src.Reads pos w) :
    literal src (.ofText w) pos =
      ⟨.success (.spanning (some "string") pos (pos + w.length) (.text w)), pos + w.length⟩ := by
  rcases literal_run (.ofText w) h with ⟨_, hrun⟩ | ⟨i, c, found, hmiss, _⟩
  · exact hrun
  · exact absurd hreads hmiss.not_reads

theorem literal_ofText_of_not_reads {w : Text} {pos : Int} (h : -(src.length : Int) ≤ pos)
    (hreads : ¬ src.Reads pos w) : ∃ f, literal src (.ofText w) pos = ⟨.failure f, pos⟩ := by
  rcases literal_run (.ofText w) h with ⟨hread, _⟩ | ⟨i, c, found, _, hrun⟩
  · exact absurd hread hreads
  · exact ⟨_, hrun⟩

end Runner

end Backtrack
