import Backtrack.Grammar
import Backtrack.Parser.Run
import Backtrack.Proofs.Reading
import Backtrack.Proofs.Trie.Arranged

/-!
# The longest word at a position

A walk may run on behind the last word that it has passed, and its runner comes back to the end of
that word. Each step keeps the walk on a path that the source reads and keeps the length of the
longest word on that path. A walk that is stuck has left no word of the trie ahead, so what it kept
is the longest word of all that the source reads there.
-/

namespace Backtrack.Trie.Walk

theorem step?_eq_some {w next : Walk} {v : Value} : w.step? v = some next ↔
    ∃ c t, v.bare = .text [c] ∧ w.node.child? [c] = some t ∧ next = w.follow [c] t := by
  constructor
  · intro h
    unfold step? at h
    split at h
    · next key hkey =>
      obtain ⟨t, ht, rfl⟩ := Option.map_eq_some_iff.mp h
      -- only single characters are keys
      match key, ht with
      | [c], ht => exact ⟨c, t, Value.text?_eq_some.mp hkey, ht, rfl⟩
    · cases h
  · rintro ⟨c, t, hv, ht, rfl⟩
    rw [step?, Value.text?_eq_some.mpr hv]
    exact congrArg (Option.map (w.follow [c])) ht

/-- The walk cannot go on: the source has ended, or no edge fits the next item. -/
def Stuck (src : Sequence) (w : Walk) : Prop :=
  src.peek w.pos = .ok none ∨ ∃ v, src.peek w.pos = .ok (some v) ∧ w.step? v = none

/-- What every step keeps holds of a finished walk, which is stuck. -/
theorem run_invariant {src : Sequence} {P : Walk → Prop}
    (hstep : ∀ w v next, P w → src.peek w.pos = .ok (some v) → w.step? v = some next → P next)
    {w last : Walk} (hw : P w) (h : w.run src = .ok last) : P last ∧ Stuck src last := by
  induction w using Walk.run.induct src with
  | case1 w e hpeek =>
    rw [run_eq, hpeek] at h
    cases h
  | case2 w hpeek =>
    rw [run_eq, hpeek] at h
    cases h
    exact ⟨hw, .inl hpeek⟩
  | case3 w v hpeek hnone =>
    rw [run_eq, hpeek] at h
    simp only [hnone] at h
    cases h
    exact ⟨hw, .inr ⟨v, hpeek, hnone⟩⟩
  | case4 w v hpeek next hnext ih =>
    rw [run_eq, hpeek] at h
    simp only [hnext] at h
    exact ih (hstep w v next hw hpeek hnext) h

/-- A walk that does not start before the first item comes to an end. -/
theorem run_isOk {src : Sequence} {w : Walk} (h : -(src.length : Int) ≤ w.pos) :
    ∃ last, w.run src = .ok last := by
  induction w using Walk.run.induct src with
  | case1 w e hpeek =>
    obtain ⟨item, hitem⟩ := Sequence.peek_isOk h
    rw [hpeek] at hitem
    cases hitem
  | case2 w hpeek => exact ⟨w, by rw [run_eq, hpeek]⟩
  | case3 w v hpeek hnone => exact ⟨w, by simp only [run_eq src w, hpeek, hnone]⟩
  | case4 w v hpeek next hnext ih =>
    have hpos := pos_of_step? hnext
    obtain ⟨last, hlast⟩ := ih (by omega)
    exact ⟨last, by rw [run_eq, hpeek]; simp only [hnext, hlast]⟩

/-- Where a walk is that started at `start`, and what it remembers: the longest prefix of its path
that is a word. -/
structure Tracks (root : Trie) (src : Sequence) (start : Int) (w : Walk) : Prop where
  node : root.descend? w.read = some w.node
  pos : w.pos = start + w.read.length
  reads : src.Reads start w.read
  passed : ∀ n, w.longest = some n → n ≤ w.read.length ∧ root.Holds (w.read.take n)
  longest : ∀ m, m ≤ w.read.length → root.Holds (w.read.take m) → ∃ n, w.longest = some n ∧ m ≤ n

theorem tracks_start (root : Trie) (src : Sequence) (pos : Int) :
    Tracks root src pos (start root pos) := by
  refine ⟨rfl, by simp [start], Sequence.reads_nil src pos, ?_, ?_⟩
  · intro n hn
    by_cases he : root.ends = true
    · simp only [start, he, ↓reduceIte, Option.some.injEq] at hn
      subst hn
      exact ⟨Nat.le_refl 0, root, rfl, he⟩
    · simp [start, he] at hn
  · intro m hm hholds
    obtain ⟨node, hnode, he⟩ := hholds
    have hm0 : m = 0 := Nat.le_zero.mp hm
    subst hm0
    cases hnode
    exact ⟨0, by simp [start, he], Nat.le_refl 0⟩

/-- Following an edge adds one prefix to the path, the whole of it. -/
theorem tracks_follow {root : Trie} {src : Sequence} {pos : Int} {w : Walk} {v : Value} {c : Char}
    {next : Trie} (h : Tracks root src pos w) (hpeek : src.peek w.pos = .ok (some v))
    (hv : v.bare = .text [c]) (hnext : w.node.child? [c] = some next) :
    Tracks root src pos (w.follow [c] next) := by
  have hnode : root.descend? (w.read ++ [c]) = some next := by
    rw [descend?_append, h.node]
    simp only [Option.bind_some, descend?, hnext]
  have hwhole : root.Holds (w.read ++ [c]) ↔ next.ends = true := by
    constructor
    · rintro ⟨node, hn, he⟩
      rw [hnode] at hn
      cases hn
      exact he
    · intro he
      exact ⟨next, hnode, he⟩
  have hlen : (w.read ++ [c]).length = w.read.length + 1 := by simp
  have hcut : ∀ m, m ≤ w.read.length → (w.read ++ [c]).take m = w.read.take m :=
    fun m hm => List.take_append_of_le_length hm
  refine ⟨hnode, ?_, ?_, ?_, ?_⟩
  · have := h.pos
    simp only [follow, hlen]
    omega
  · rw [follow, Sequence.reads_append]
    refine ⟨h.reads, Sequence.reads_singleton.mpr ⟨v, ?_, hv⟩⟩
    rw [← h.pos]
    exact hpeek
  · intro n hn
    simp only [follow] at hn ⊢
    by_cases he : next.ends = true
    · rw [if_pos he] at hn
      cases hn
      refine ⟨Nat.le_refl _, ?_⟩
      rw [List.take_length]
      exact hwhole.mpr he
    · rw [if_neg he] at hn
      obtain ⟨hle, hholds⟩ := h.passed n hn
      refine ⟨by omega, ?_⟩
      rw [hcut n hle]
      exact hholds
  · intro m hm hholds
    simp only [follow] at hm hholds ⊢
    by_cases he : next.ends = true
    · exact ⟨_, if_pos he, hm⟩
    · rw [if_neg he]
      have hlt : m ≤ w.read.length := by
        by_contra hgt
        have hall : m = (w.read ++ [c]).length := by omega
        rw [hall, List.take_length] at hholds
        exact he (hwhole.mp hholds)
      rw [hcut m hlt] at hholds
      exact h.longest m hlt hholds

theorem tracks_run {root : Trie} {src : Sequence} {pos : Int} {last : Walk}
    (h : (start root pos).run src = .ok last) :
    Tracks root src pos last ∧ Stuck src last := by
  refine run_invariant ?_ (tracks_start root src pos) h
  intro w v next hw hpeek hnext
  obtain ⟨c, t, hv, ht, rfl⟩ := step?_eq_some.mp hnext
  exact tracks_follow hw hpeek hv ht

/-- A stuck walk has gone at least as far as any word that the source reads. -/
theorem prefix_of_stuck {root : Trie} {src : Sequence} {pos : Int} {w : Walk} {word : Text}
    (h : Tracks root src pos w) (hstuck : Stuck src w) (hword : root.Holds word)
    (hreads : src.Reads pos word) : word <+: w.read := by
  rcases Nat.le_total word.length w.read.length with hle | hle
  · exact hreads.prefix_of_le h.reads hle
  obtain ⟨rest, rfl⟩ := h.reads.prefix_of_le hreads hle
  cases rest with
  | nil =>
    simp only [List.append_nil, List.prefix_refl]
  | cons c rest =>
    -- the word goes on behind the walk, so the walk could have gone on too
    exfalso
    obtain ⟨⟨v, hv, hc⟩, _⟩ := Sequence.reads_cons.mp (Sequence.reads_append.mp hreads).2
    rw [← h.pos] at hv
    obtain ⟨node, hnode, _⟩ := hword
    rw [descend?_append, h.node, Option.bind_some] at hnode
    cases hchild : w.node.child? [c] with
    | none => simp [descend?, hchild] at hnode
    | some t =>
      have hstep := step?_eq_some.mpr ⟨c, t, hc, hchild, rfl⟩
      rcases hstuck with hend | ⟨v', hv', hnone⟩
      · rw [hv] at hend
        cases hend
      · rw [hv] at hv'
        cases hv'
        rw [hstep] at hnone
        cases hnone

end Backtrack.Trie.Walk

namespace Backtrack

open Trie (Walk ofTexts ofWords_literals)

/-- The runner of a trie takes the word that all other words in the source are prefixes of, and
fails without moving if there is no word. -/
theorem Runner.trie_run (root : Trie) {src : Sequence} {pos : Int}
    (h : -(src.length : Int) ≤ pos) :
    (∃ word, root.Holds word ∧ src.Reads pos word ∧
      (∀ u, root.Holds u → src.Reads pos u → u <+: word) ∧
      Runner.trie src root pos =
        ⟨.success (.spanning (some "trie") pos (pos + word.length) (.text word)),
          pos + word.length⟩) ∨
    ((∀ u, root.Holds u → ¬ src.Reads pos u) ∧
      Runner.trie src root pos =
        ⟨.failure { pos, cause := .plain Failure.noAlternative }, pos⟩) := by
  obtain ⟨last, hlast⟩ := Walk.run_isOk (w := Walk.start root pos) h
  obtain ⟨htracks, hstuck⟩ := Walk.tracks_run hlast
  -- a word that the source reads is a prefix of the path, so the walk has seen it
  have hseen : ∀ u, root.Holds u → src.Reads pos u →
      u = last.read.take u.length ∧ ∃ n, last.longest = some n ∧ u.length ≤ n := by
    intro u hu hreads
    have hpre := Walk.prefix_of_stuck htracks hstuck hu hreads
    have htake := List.prefix_iff_eq_take.mp hpre
    exact ⟨htake, htracks.longest u.length hpre.length_le (htake ▸ hu)⟩
  cases hlongest : last.longest with
  | none =>
    refine .inr ⟨?_, ?_⟩
    · intro u hu hreads
      obtain ⟨-, n, hn, -⟩ := hseen u hu hreads
      rw [hlongest] at hn
      cases hn
    · exact Runner.trie_failure hlast hlongest
  | some n =>
    obtain ⟨hn, hholds⟩ := htracks.passed n hlongest
    have hlen : (last.read.take n).length = n := List.length_take_of_le hn
    have hcut := List.take_prefix n last.read
    refine .inl ⟨last.read.take n, hholds, htracks.reads.of_prefix hcut, ?_, ?_⟩
    · intro u hu hreads
      obtain ⟨htake, m, hm, hle⟩ := hseen u hu hreads
      rw [hlongest] at hm
      cases hm
      rw [htake]
      exact List.take_prefix_take_left hle
    · rw [hlen]
      exact Runner.trie_success hlast hlongest

theorem build_trie (words : List Literal) :
    (Grammar.trie (words.map Literal.written)).build.result =
      .ok (.trie (ofTexts (words.map Literal.letters))) := by
  rw [Grammar.build, Parser.ofWords, ofWords_literals]
  rfl

/-- A trie of words takes the longest of them that the source reads at the position. If it reads
none, the trie fails there. -/
theorem trie_takes_longest_word (words : List Literal) (src : Sequence) (pos : Nat) :
    ∃ p, (Grammar.trie (words.map Literal.written)).build.result = .ok p ∧
      ((∃ word ∈ words.map Literal.letters, src.Reads pos word ∧
          (∀ other ∈ words.map Literal.letters, src.Reads pos other → other ≠ word →
            other.length < word.length) ∧
          p.run src pos =
            { outcome := .success
                { type := some "trie", range := some (pos, pos + word.length), value := .text word }
              pos := pos + word.length }) ∨
        ((∀ word ∈ words.map Literal.letters, ¬ src.Reads pos word) ∧
          p.run src pos =
            { outcome := .failure
                { pos := pos, cause := .plain (some "No alternative matched."), notes := [] }
              pos := pos })) := by
  refine ⟨_, build_trie words, ?_⟩
  have hpos : -(src.length : Int) ≤ pos := by omega
  rcases Runner.trie_run (ofTexts (words.map Literal.letters)) hpos with
    ⟨word, hword, hreads, hlongest, hrun⟩ | ⟨hnone, hrun⟩
  · refine .inl ⟨word, (Trie.holds_ofTexts _ _).mp hword, hreads, ?_, hrun⟩
    intro other hother hother_reads hne
    have hpre := hlongest other ((Trie.holds_ofTexts _ _).mpr hother) hother_reads
    have hlength : other.length ≠ word.length := fun h => hne (hpre.eq_of_length h)
    exact Nat.lt_of_le_of_ne hpre.length_le hlength
  · refine .inr ⟨?_, hrun⟩
    intro word hword
    exact hnone word ((Trie.holds_ofTexts _ _).mpr hword)

end Backtrack
