import Backtrack.Parser.Run
import Backtrack.Proofs.Comparison
import Backtrack.Proofs.Decision
import Backtrack.Proofs.Literal
import Backtrack.Proofs.Spelling

/-!
# Where a failure comes from

A failure is handed on as it is by sequences, attempts and labels, and by a choice that does not go
on. So it is the answer of a leaf that the run came to, unless it is a choice's own. A leaf reports
the item at the position where it was run, or the first miss of a literal, and a later return to the
start leaves the report as it is.
-/

namespace Backtrack

namespace Sequence

/-- The item at the position is `found`, or it is the end and `found` is the null item. -/
structure Stands (src : Sequence) (pos : Int) (found : Value) : Prop where
  item : pos < src.length → src.peek pos = .ok (some found)
  ending : src.length ≤ pos → found = .null

theorem stands_of_item {src : Sequence} {pos : Int} {v : Value} (h : src.peek pos = .ok (some v)) :
    src.Stands pos v := by
  refine ⟨fun _ => h, ?_⟩
  intro hend
  have hpos := lt_length_of_peek h
  omega

theorem stands_of_end {src : Sequence} {pos : Int} (h : src.peek pos = .ok none) :
    src.Stands pos .null := by
  have hend := peek_eq_end.mp h
  refine ⟨?_, fun _ => rfl⟩
  intro hpos
  omega

theorem FirstMiss.stands {src : Sequence} {pos : Int} {word : Text} {i : Nat} {c : Char}
    {found : Value} (h : src.FirstMiss pos word i c found) : src.Stands (pos + i) found := by
  rcases h.found with ⟨hend, rfl⟩ | ⟨hitem, _⟩
  · exact stands_of_end hend
  · exact stands_of_item hitem

theorem FirstMiss.sameChar_found {src : Sequence} {pos : Int} {word : Text} {i : Nat} {c : Char}
    {found : Value} (h : src.FirstMiss pos word i c found) :
    found.sameChar (.text [c]) = false := by
  have hne : found.bare ≠ .text [c] := by
    rcases h.found with ⟨_, rfl⟩ | ⟨_, hne⟩
    · intro hnull
      cases hnull
    · exact hne
  rw [← Bool.not_eq_true]
  exact fun hsame => hne (Value.sameChar_text.mp hsame)

theorem peek_before {s : Sequence} {pos : Int} (h : pos < -(s.length : Int)) :
    ∃ e, s.peek pos = .error e := by
  cases pos with
  | ofNat i =>
    rw [Int.ofNat_eq_natCast] at h
    omega
  | negSucc i =>
    have hi : ¬ i < s.length := by omega
    exact ⟨_, by rw [peek, if_neg hi]⟩

end Sequence

namespace Runner

variable {src : Sequence} {pos next : Int} {f : Failure}

theorem token_failure {accepts : Value → Bool} {refuse : Int → Value → Failure}
    (h : token src accepts refuse pos = ⟨.failure f, next⟩) :
    ∃ found, src.Stands pos found ∧ f = refuse pos found := by
  unfold token at h
  split at h
  · cases h
  · next hend =>
    cases h
    exact ⟨.null, Sequence.stands_of_end hend, rfl⟩
  · next v hv =>
    split at h
    · cases h
    · cases h
      exact ⟨v, Sequence.stands_of_item hv, rfl⟩

theorem eof_failure (h : eof src pos = ⟨.failure f, next⟩) :
    ∃ found, src.Stands pos found ∧ f = { pos, cause := .expected "end of input" found } := by
  unfold eof at h
  split at h
  · cases h
  · cases h
  · next v hv =>
    cases h
    exact ⟨v, Sequence.stands_of_item hv, rfl⟩

theorem trie_failure_plain {root : Trie} (h : trie src root pos = ⟨.failure f, next⟩) :
    f.cause = .plain Failure.noAlternative := by
  cases hrun : (Trie.Walk.start root pos).run src with
  | error e =>
    rw [trie_fault hrun] at h
    cases h
  | ok w =>
    cases hlongest : w.longest with
    | none =>
      rw [trie_failure hrun hlongest] at h
      cases h
      rfl
    | some n =>
      rw [trie_success hrun hlongest] at h
      cases h

/-- Before the first item a literal of no characters succeeds and any other one faults. -/
theorem literal_not_failure_before (l : Literal) (hpos : pos < -(src.length : Int)) :
    literal src l pos ≠ ⟨.failure f, next⟩ := by
  obtain ⟨e, he⟩ := Sequence.peek_before hpos
  have hletters : letters src l = lettersFrom src l l.letters 0 := rfl
  intro h
  rw [literal, hletters] at h
  cases hword : l.letters with
  | nil =>
    have hrun : sequence (lettersFrom src l [] 0) pos =
        ⟨.success (.spanning (some "string") pos pos l.written.toValue), pos⟩ := rfl
    rw [hword, attempt_success hrun] at h
    cases h
  | cons c word =>
    have hletter : letter src l c 0 pos = ⟨.fault e, pos⟩ := by simp only [letter, token, he]
    have hrun : sequence (lettersFrom src l (c :: word) 0) pos = ⟨.fault e, pos⟩ := by
      rw [lettersFrom_cons]
      exact sequenceFrom_fault hletter
    rw [hword, attempt_fault hrun] at h
    cases h

theorem literal_failure {l : Literal} (h : literal src l pos = ⟨.failure f, next⟩) :
    next = pos ∧ ∃ i c found, src.FirstMiss pos l.letters i c found ∧
      f = { pos := pos + i, cause := .mismatch l i (String.singleton c) found } := by
  rcases Int.lt_or_le pos (-(src.length : Int)) with hpos | hpos
  · exact absurd h (literal_not_failure_before l hpos)
  rcases literal_run l hpos with ⟨_, hrun⟩ | ⟨i, c, found, hmiss, hrun⟩
  · rw [hrun] at h
    cases h
  · rw [hrun] at h
    cases h
    exact ⟨rfl, i, c, found, hmiss, rfl⟩

end Runner

namespace Parser

open Runner (Passes Refuses)

/-- A run of the first parser from the first position comes to run the second parser from the second
position: behind parts that succeed, or after alternatives that refuse. -/
inductive Reaches (src : Sequence) : Parser → Int → Parser → Int → Prop
  | here (p : Parser) (pos : Int) : Reaches src p pos p pos
  | sequence {first part q : Parser} {rest before behind : List Parser} {start mid pos : Int}
      (hparts : first :: rest = before ++ part :: behind)
      (hbefore : Passes (before.map (run src)) start mid) (h : Reaches src part mid q pos) :
      Reaches src (.sequence first rest) start q pos
  | choice {part q : Parser} {before behind : List Parser} {start pos : Int}
      (hbefore : ∀ p ∈ before, Refuses start (p.run src)) (h : Reaches src part start q pos) :
      Reaches src (.choice (before ++ part :: behind)) start q pos
  | attempt {body q : Parser} {start pos : Int} (h : Reaches src body start q pos) :
      Reaches src (.attempt body) start q pos
  | label {name : String} {body q : Parser} {start pos : Int} (h : Reaches src body start q pos) :
      Reaches src (.label name body) start q pos
  | anonymous {body q : Parser} {start pos : Int} (h : Reaches src body start q pos) :
      Reaches src (.anonymous body) start q pos

/-- A parser without parts. -/
def isLeaf : Parser → Bool
  | .sequence .. | .choice _ | .attempt _ | .label .. | .anonymous _ => false
  | _ => true

variable {src : Sequence}

/-- The failure is the answer of a leaf that the run comes to. -/
def FromLeaf (src : Sequence) (p : Parser) (start : Int) (f : Failure) : Prop :=
  ∃ q pos stop, Reaches src p start q pos ∧ q.isLeaf = true ∧ q.run src pos = ⟨.failure f, stop⟩

theorem FromLeaf.of_part {p part : Parser} {start mid : Int} {f : Failure}
    (h : FromLeaf src part mid f)
    (hpart : ∀ q pos, Reaches src part mid q pos → Reaches src p start q pos) :
    FromLeaf src p start f := by
  obtain ⟨q, pos, stop, hreach, hq⟩ := h
  exact ⟨q, pos, stop, hpart q pos hreach, hq⟩

/-- The failure of a run is the answer of a leaf that the run came to, or a choice's own after all
alternatives have refused. -/
theorem failure_origin {p : Parser} {start next : Int} {f : Failure}
    (h : p.run src start = ⟨.failure f, next⟩) :
    f.cause = .plain Failure.noAlternative ∨ FromLeaf src p start f := by
  induction p generalizing start next with
  | sequence first rest ih =>
    rcases run_sequence_cases first rest with
      ⟨stop, res, _, hend⟩ | ⟨before, part, behind, mid, hsplit, hpass, _, hend⟩
    · rw [hend] at h
      cases h
    · rw [hend] at h
      have hmem : part ∈ first :: rest := hsplit ▸ List.mem_append_cons_self
      exact (ih part hmem h).imp id fun hleaf => hleaf.of_part fun _ _ => .sequence hsplit hpass
  | choice alternatives ih =>
    rcases run_choice_cases alternatives with
      ⟨before, part, behind, rfl, hbefore, _, hend⟩ | ⟨fs, _, hend⟩
    · rw [hend] at h
      exact (ih part List.mem_append_cons_self h).imp id fun hleaf =>
        hleaf.of_part fun _ _ => .choice hbefore
    · rw [hend] at h
      cases h
      exact .inl rfl
  | attempt body ih =>
    rw [run] at h
    rcases hrun : body.run src start with ⟨outcome, stop⟩
    cases outcome with
    | success r =>
      rw [Runner.attempt_success hrun] at h
      cases h
    | failure g =>
      rw [Runner.attempt_failure hrun] at h
      cases h
      exact (ih hrun).imp id fun hleaf => hleaf.of_part fun _ _ => .attempt
    | fault e =>
      rw [Runner.attempt_fault hrun] at h
      cases h
  | label name body ih => exact (ih h).imp id fun hleaf => hleaf.of_part fun _ _ => .label
  | anonymous body ih => exact (ih h).imp id fun hleaf => hleaf.of_part fun _ _ => .anonymous
  | _ => exact .inr ⟨_, start, next, .here _ start, rfl, h⟩

/-- A leaf that reports an item found reports the one at its position, or the first miss of a
literal. -/
theorem leaf_failure {q : Parser} (hq : q.isLeaf = true) {pos stop : Int} {f : Failure}
    (h : q.run src pos = ⟨.failure f, stop⟩) :
    (∃ msg, f.cause = .plain msg) ∨
    (∃ what found, src.Stands pos found ∧ f = { pos, cause := .expected what found }) ∨
    ∃ l i c found, q = .literal l ∧ stop = pos ∧ src.FirstMiss pos l.letters i c found ∧
      f = { pos := pos + i, cause := .mismatch l i (String.singleton c) found } := by
  cases q with
  | token test report =>
    obtain ⟨found, hfound, rfl⟩ := Runner.token_failure h
    cases report with
    | expect what => exact .inr (.inl ⟨what, found, hfound, rfl⟩)
    | plain msg => exact .inl ⟨msg, rfl⟩
  | always value type => cases h
  | never msg =>
    cases h
    exact .inl ⟨msg, rfl⟩
  | eof =>
    obtain ⟨found, hfound, rfl⟩ := Runner.eof_failure h
    exact .inr (.inl ⟨_, found, hfound, rfl⟩)
  | literal l =>
    obtain ⟨hstop, i, c, found, hmiss, rfl⟩ := Runner.literal_failure h
    exact .inr (.inr ⟨l, i, c, found, rfl, hstop, hmiss, rfl⟩)
  | trie words => exact .inl ⟨_, Runner.trie_failure_plain h⟩
  | seek target succeeds =>
    cases succeeds with
    | true => cases h
    | false =>
      cases h
      exact .inl ⟨_, rfl⟩
  | raise msg => cases h
  | _ => cases hq

/-- What a failure can report: a message only, the item at its position, or the first miss of a
literal that the run came to. -/
theorem failure_reported {p : Parser} {start next : Int} {f : Failure}
    (h : p.run src start = ⟨.failure f, next⟩) :
    (∃ msg, f.cause = .plain msg) ∨
    (∃ pos what found, src.Stands pos found ∧ f = { pos, cause := .expected what found }) ∨
    ∃ l pos i c found, src.FirstMiss pos l.letters i c found ∧
      Reaches src p start (.literal l) pos ∧ (literal l).run src pos = ⟨.failure f, pos⟩ ∧
      f = { pos := pos + i, cause := .mismatch l i (String.singleton c) found } := by
  rcases failure_origin h with hcause | ⟨q, pos, stop, hreach, hleaf, hrun⟩
  · exact .inl ⟨_, hcause⟩
  rcases leaf_failure hleaf hrun with
    hcause | ⟨what, found, hstands, hf⟩ | ⟨l, i, c, found, rfl, rfl, hmiss, hf⟩
  · exact .inl hcause
  · exact .inr (.inl ⟨pos, what, found, hstands, hf⟩)
  · exact .inr (.inr ⟨l, stop, i, c, found, hmiss, hreach, hrun, hf⟩)

/-- Whatever a failure reports as found is what stands at its position. -/
theorem stands_found {p : Parser} {start next : Int} {f : Failure} {found : Value}
    (h : p.run src start = ⟨.failure f, next⟩) (hfound : f.cause.found? = some found) :
    src.Stands f.pos found := by
  rcases failure_reported h with
    ⟨msg, hcause⟩ | ⟨pos, what, found', hstands, rfl⟩ | ⟨l, pos, i, c, found', hmiss, -, -, rfl⟩
  · rw [hcause] at hfound
    cases hfound
  · cases hfound
    exact hstands
  · cases hfound
    exact hmiss.stands

end Parser

/-- A source that reads a word has, at each offset, an item that is the same character as the item
of a literal that spells the word. -/
theorem Sequence.Reads.sameChar_item {src : Sequence} {pos : Int} {l : Literal} {i j : Nat}
    (h : src.Reads pos (l.letters.take i)) (hi : i < l.letters.length) (hj : j < i) :
    ∃ v w, src.peek (pos + j) = .ok (some v) ∧ l.written.item? j = some w ∧
      v.sameChar w = true := by
  have hjl : j < l.letters.length := Nat.lt_trans hj hi
  have hjt : j < (l.letters.take i).length := by
    rw [List.length_take]
    omega
  obtain ⟨v, hv, hbare⟩ := h j hjt
  rw [List.getElem_take] at hbare
  obtain ⟨w, hw, hletter⟩ := Literal.item?_written (List.getElem?_eq_getElem hjl)
  have hread := Value.letter_eq_ok_iff.mpr hbare
  exact ⟨v, w, hv, hw, (Value.sameChar_of_letter hread w).mpr hletter⟩

/-- Wherever the run has gone back to since, a failure that names the item found names the one at
its own position, and the failure of a literal is the first miss of it where it was run. -/
theorem failure_tells_truth {p : Parser} {src : Sequence} {start next : Int} {f : Failure}
    (h : p.run src start = ⟨.failure f, next⟩) :
    (∀ found, f.cause.found? = some found → src.Stands f.pos found) ∧
    ∀ l index what found, f.cause = .mismatch l index what found →
      ∃ i : Nat, index = i ∧ i < l.written.length ∧
        (∃ w c, l.written.item? i = some w ∧ w.letter = .ok c ∧ what = String.singleton c ∧
          found.sameChar (.text [c]) = false) ∧
        (∀ j < i, ∃ v w, src.peek (f.pos - i + j) = .ok (some v) ∧ l.written.item? j = some w ∧
          v.sameChar w = true) ∧
        p.Reaches src start (.literal l) (f.pos - i) ∧
        (Parser.literal l).run src (f.pos - i) = ⟨.failure f, f.pos - i⟩ := by
  rcases Parser.failure_reported h with
    ⟨msg, hcause⟩ | ⟨pos, what, found, hstands, rfl⟩ |
    ⟨l, pos, i, c, found, hmiss, hreach, hrun, hf⟩
  · refine ⟨?_, ?_⟩
    · intro found hfound
      rw [hcause] at hfound
      cases hfound
    · intro l index what found hmismatch
      rw [hcause] at hmismatch
      cases hmismatch
  · refine ⟨?_, ?_⟩
    · intro found' hfound
      cases hfound
      exact hstands
    · intro l index what' found' hmismatch
      cases hmismatch
  · have hstart : f.pos - i = pos := by
      rw [hf]
      exact Int.add_sub_cancel pos i
    obtain ⟨hi, _⟩ := List.getElem?_eq_some_iff.mp hmiss.char
    obtain ⟨w, hw, hletter⟩ := Literal.item?_written hmiss.char
    refine ⟨?_, ?_⟩
    · intro found' hfound
      rw [hf] at hfound ⊢
      cases hfound
      exact hmiss.stands
    · intro l' index what found' hmismatch
      have hcause : f.cause = .mismatch l i (String.singleton c) found := by rw [hf]
      cases hcause.symm.trans hmismatch
      refine ⟨i, rfl, ?_, ⟨w, c, hw, hletter, rfl, hmiss.sameChar_found⟩, ?_⟩
      · rwa [Literal.length_written]
      rw [hstart]
      refine ⟨?_, hreach, hrun⟩
      intro j hj
      exact hmiss.reads.sameChar_item hi hj

/-- The literal `ab` behind one item, in a source that ends with a null item: the run goes back to
the start, and the failure names the item two positions further on. -/
theorem failure_tells_truth_rewound :
    (Parser.attempt (.sequence (.token .all (.plain none)) [.literal (.ofText ['a', 'b'])])).run
        (.items [.int 7, .tagged ['a'], .null]) 0 =
      ⟨.failure { pos := 2, cause := .mismatch (.ofText ['a', 'b']) 1 "b" .null }, 0⟩ ∧
    (Sequence.items [.int 7, .tagged ['a'], .null]).Stands 2 .null ∧
    (Parser.attempt (.sequence (.token .all (.plain none)) [.literal (.ofText ['a', 'b'])])).Reaches
      (.items [.int 7, .tagged ['a'], .null]) 0 (.literal (.ofText ['a', 'b'])) 1 := by
  have hrun : (Parser.attempt
      (.sequence (.token .all (.plain none)) [.literal (.ofText ['a', 'b'])])).run
        (.items [.int 7, .tagged ['a'], .null]) 0 =
      ⟨.failure { pos := 2, cause := .mismatch (.ofText ['a', 'b']) 1 "b" .null }, 0⟩ := rfl
  obtain ⟨hitem, hliteral⟩ := failure_tells_truth hrun
  obtain ⟨i, hi, -, -, -, hreach, -⟩ := hliteral _ _ _ _ rfl
  refine ⟨hrun, hitem _ rfl, ?_⟩
  rwa [← hi] at hreach

end Backtrack
