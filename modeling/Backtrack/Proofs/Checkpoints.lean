import Backtrack.Session
import Mathlib.Data.List.Basic

/-!
# Checkpoints through a session

A session is taken apart into moments: its steps one by one, where a block has a moment of its own
for the entry and one for the end. Each moment keeps what every checkpoint remembers and commits at
most the one that its step names, so this holds between any two moments, in blocks or not. The end
of a block is the only moment that looks at whether its checkpoint has been committed.
-/

namespace Backtrack

/-- Induction with a hypothesis for every step of a block. -/
@[induction_eliminator]
theorem Step.induct {motive : Step → Prop}
    (simple : ∀ step, (∀ name body raises, step ≠ .block name body raises) → motive step)
    (block : ∀ name body raises, (∀ step ∈ body, motive step) → motive (.block name body raises))
    (step : Step) : motive step :=
  @Step.rec motive (fun steps => ∀ step ∈ steps, motive step)
    (fun g => simple (.run g) nofun) (simple .current nofun)
    (fun target => simple (.seek target) nofun)
    (fun name => simple (.save name) nofun) (fun name => simple (.commit name) nofun)
    (fun name => simple (.rollback name) nofun) (fun name => simple (.settle name) nofun)
    (fun name => simple (.range name) nofun) block (fun _ h => by cases h)
    (fun _ _ hstep hrest _ h => (List.mem_cons.mp h).elim (fun he => he ▸ hstep) (hrest _)) step

namespace Session

/-- What is done at a moment: a step that is not a block, or one of the two ends of a block. -/
inductive Deed
  | step (step : Step)
  | enter (name : String)
  | leave (raises : Bool)

structure Moment where
  before : Session
  deed : Deed
  after : Session

mutual

/-- The moments of a step in order. -/
def moments (src : Sequence) : Step → Session → List Moment
  | .block name body raises, s =>
    ⟨s, .enter name, s.save name⟩ ::
      (momentsAll src body (s.save name) ++
        [⟨(execAll src body (s.save name)).1, .leave raises,
          (exec src (.block name body raises) s).1⟩])
  | step, s => [⟨s, .step step, (exec src step s).1⟩]
termination_by structural step => step

def momentsAll (src : Sequence) : List Step → Session → List Moment
  | [], _ => []
  | step :: rest, s => moments src step s ++ momentsAll src rest (exec src step s).1
termination_by structural steps => steps

end

/-- The moments lead from the one state to the other, each beginning where the last one ended. -/
inductive Follows : Session → List Moment → Session → Prop
  | nil (s : Session) : Follows s [] s
  | cons (m : Moment) {ms : List Moment} {t : Session} (h : Follows m.after ms t) :
    Follows m.before (m :: ms) t

/-- The step names checkpoint `i` and commits it. -/
def Moment.Commits (m : Moment) (i : Nat) : Prop :=
  ∃ name, m.deed = .step (.commit name) ∧ m.before.names.lookup name = some i

/-- What a moment may do to the checkpoints: commit those it names, and create some at the position,
which are not committed yet. -/
structure Moment.Disciplined (m : Moment) : Prop where
  keeps : ∀ i c, m.before.checkpoints[i]? = some c →
    ∃ c', m.after.checkpoints[i]? = some c' ∧ c'.pos = c.pos ∧
      (c'.committed = true ↔ c.committed = true ∨ m.Commits i)
  creates : ∀ (i : Nat) (c : Checkpoint), m.before.checkpoints[i]? = none →
    m.after.checkpoints[i]? = some c → c = { pos := m.before.pos, committed := false }

theorem exec_block (src : Sequence) (name : String) (body : List Step) (raises : Bool)
    (s : Session) :
    exec src (.block name body raises) s =
      (execAll src body (s.save name)).1.leave s.checkpoints.length raises
        (execAll src body (s.save name)).2 := rfl

@[simp] theorem checkpoints_leave (s : Session) (i : Nat) (raises : Bool)
    (inner : List (Answer × Int)) : (s.leave i raises inner).1.checkpoints = s.checkpoints := by
  unfold leave
  split <;> rfl

@[simp] theorem checkpoints_runGrammar (src : Sequence) (s : Session) (g : Grammar) :
    (s.runGrammar src g).1.checkpoints = s.checkpoints := by
  unfold runGrammar
  simp only
  split <;> rfl

theorem checkpoints_touch (s : Session) (name : String) {f : Session → Nat → Checkpoint → Session}
    (hf : ∀ i c, (f s i c).checkpoints = s.checkpoints) :
    (s.touch name f).1.checkpoints = s.checkpoints := by
  unfold touch
  split
  · rfl
  · split
    · rfl
    · exact hf _ _

/-- Committing touches the named checkpoint only, and nothing if the name has none. -/
theorem checkpoints_commit (src : Sequence) (s : Session) (name : String) (i : Nat) :
    (exec src (.commit name) s).1.checkpoints[i]? =
      s.checkpoints[i]?.map fun c => if s.names.lookup name = some i then c.commit else c := by
  rw [exec, touch]
  split
  · next hname => simp [hname]
  · next j hname =>
    split
    · next hj =>
      by_cases hij : j = i
      · subst hij
        simp [hj]
      · simp [hname, hij]
    · simp only [commit, List.getElem?_modify, hname, Option.some.injEq]
      by_cases hij : j = i
      · simp [hij]
      · simp [hij]

theorem Moment.not_commits {m : Moment} (h : ∀ name, m.deed ≠ .step (.commit name)) (i : Nat) :
    ¬ m.Commits i := by
  rintro ⟨name, hdeed, _⟩
  exact h name hdeed

theorem disciplined_of_same {m : Moment} (h : m.after.checkpoints = m.before.checkpoints)
    (hcommits : ∀ i, ¬ m.Commits i) : m.Disciplined := by
  refine ⟨?_, ?_⟩
  · intro i c hc
    refine ⟨c, by rw [h, hc], rfl, ?_⟩
    rw [or_iff_left (hcommits i)]
  · intro i c hnone hc
    rw [h, hnone] at hc
    cases hc

theorem disciplined_of_save {m : Moment}
    (h : m.after.checkpoints = m.before.checkpoints ++ [{ pos := m.before.pos }])
    (hcommits : ∀ i, ¬ m.Commits i) : m.Disciplined := by
  refine ⟨?_, ?_⟩
  · intro i c hc
    obtain ⟨hi, _⟩ := List.getElem?_eq_some_iff.mp hc
    refine ⟨c, ?_, rfl, ?_⟩
    · rw [h, List.getElem?_append_left hi, hc]
    · rw [or_iff_left (hcommits i)]
  · intro i c hnone hc
    have hi := List.getElem?_eq_none_iff.mp hnone
    rw [h, List.getElem?_append_right hi, List.getElem?_singleton] at hc
    split at hc
    · cases hc
      rfl
    · cases hc

theorem disciplined_commit (src : Sequence) (s : Session) (name : String) :
    Moment.Disciplined ⟨s, .step (.commit name), (exec src (.commit name) s).1⟩ := by
  have hcommits : ∀ i, Moment.Commits ⟨s, .step (.commit name), (exec src (.commit name) s).1⟩ i ↔
      s.names.lookup name = some i := by
    intro i
    constructor
    · rintro ⟨name', hdeed, hname⟩
      cases hdeed
      exact hname
    · exact fun h => ⟨name, rfl, h⟩
  refine ⟨?_, ?_⟩
  · intro i c hc
    simp only at hc
    refine ⟨if s.names.lookup name = some i then c.commit else c, ?_, ?_, ?_⟩
    · simp only [checkpoints_commit, hc, Option.map_some]
    · split <;> rfl
    · rw [hcommits]
      split
      · next h => simp [Checkpoint.commit, h]
      · next h => simp [h]
  · intro i c hnone hc
    simp only at hnone hc
    rw [checkpoints_commit, hnone] at hc
    cases hc

/-- Any step but a block keeps the discipline. -/
theorem disciplined_simple (src : Sequence) (s : Session) {step : Step}
    (hstep : ∀ name body raises, step ≠ .block name body raises) :
    Moment.Disciplined ⟨s, .step step, (exec src step s).1⟩ := by
  -- a step that is neither a commit nor a save leaves the checkpoints as they are
  have hsame : ∀ step', (exec src step' s).1.checkpoints = s.checkpoints →
      (∀ name, step' ≠ .commit name) →
      Moment.Disciplined ⟨s, .step step', (exec src step' s).1⟩ := by
    intro step' h hcommit
    refine disciplined_of_same h (Moment.not_commits ?_)
    intro name hdeed
    cases hdeed
    exact hcommit name rfl
  cases step with
  | commit name => exact disciplined_commit src s name
  | save name => exact disciplined_of_save rfl (Moment.not_commits fun _ h => by cases h)
  | run g => exact hsame _ (checkpoints_runGrammar src s g) fun _ h => by cases h
  | current => exact hsame _ rfl fun _ h => by cases h
  | seek target => exact hsame _ rfl fun _ h => by cases h
  | rollback name =>
    refine hsame _ ?_ fun _ h => by cases h
    exact checkpoints_touch s name fun _ c => rfl
  | settle name =>
    refine hsame _ ?_ fun _ h => by cases h
    exact checkpoints_touch s name fun _ c => rfl
  | range name =>
    refine hsame _ ?_ fun _ h => by cases h
    exact checkpoints_touch s name fun _ c => rfl
  | block name body raises => exact absurd rfl (hstep name body raises)

theorem moments_simple (src : Sequence) (s : Session) {step : Step}
    (hstep : ∀ name body raises, step ≠ .block name body raises) :
    moments src step s = [⟨s, .step step, (exec src step s).1⟩] := by
  cases step with
  | block name body raises => exact absurd rfl (hstep name body raises)
  | _ => rfl

theorem disciplined_momentsAll {src : Sequence} {steps : List Step}
    (h : ∀ step ∈ steps, ∀ s, ∀ m ∈ moments src step s, m.Disciplined) :
    ∀ s, ∀ m ∈ momentsAll src steps s, m.Disciplined := by
  induction steps with
  | nil => exact fun _ _ hm => by cases hm
  | cons step rest ih =>
    obtain ⟨hstep, hrest⟩ := List.forall_mem_cons.mp h
    intro s m hm
    rw [momentsAll] at hm
    rcases List.mem_append.mp hm with hm | hm
    · exact hstep s m hm
    · exact ih hrest _ m hm

theorem disciplined_moments (src : Sequence) (step : Step) :
    ∀ s, ∀ m ∈ moments src step s, m.Disciplined := by
  induction step with
  | simple step hstep =>
    intro s m hm
    rw [moments_simple src s hstep] at hm
    cases List.mem_singleton.mp hm
    exact disciplined_simple src s hstep
  | block name body raises ih =>
    intro s m hm
    rw [moments] at hm
    rcases List.mem_cons.mp hm with rfl | hm
    · exact disciplined_of_save rfl (Moment.not_commits fun _ h => by cases h)
    rcases List.mem_append.mp hm with hm | hm
    · exact disciplined_momentsAll ih _ m hm
    · cases List.mem_singleton.mp hm
      refine disciplined_of_same ?_ (Moment.not_commits fun _ h => by cases h)
      exact checkpoints_leave _ _ _ _

namespace Follows

variable {s t u : Session} {ms ms' : List Moment}

theorem append (h : Follows s ms t) (h' : Follows t ms' u) : Follows s (ms ++ ms') u := by
  induction h with
  | nil s => exact h'
  | cons m _ ih => exact .cons m (ih h')

/-- Between two states a checkpoint keeps its position, and what commits it is a commit of its
own. -/
theorem checkpoint (h : Follows s ms t) (hms : ∀ m ∈ ms, m.Disciplined) {i : Nat} {c : Checkpoint}
    (hc : s.checkpoints[i]? = some c) :
    ∃ c', t.checkpoints[i]? = some c' ∧ c'.pos = c.pos ∧
      (c'.committed = true ↔ c.committed = true ∨ ∃ m ∈ ms, m.Commits i) := by
  induction h generalizing c with
  | nil s => exact ⟨c, hc, rfl, by simp⟩
  | @cons m ms t _ ih =>
    obtain ⟨hm, hrest⟩ := List.forall_mem_cons.mp hms
    obtain ⟨c₁, hc₁, hpos₁, hcommitted₁⟩ := hm.keeps i c hc
    obtain ⟨c₂, hc₂, hpos₂, hcommitted₂⟩ := ih hrest hc₁
    refine ⟨c₂, hc₂, hpos₂.trans hpos₁, ?_⟩
    rw [hcommitted₂, hcommitted₁, or_assoc]
    simp only [List.mem_cons, exists_eq_or_imp]

end Follows

theorem follows_momentsAll {src : Sequence} {steps : List Step}
    (h : ∀ step ∈ steps, ∀ s, Follows s (moments src step s) (exec src step s).1) :
    ∀ s, Follows s (momentsAll src steps s) (execAll src steps s).1 := by
  induction steps with
  | nil => exact fun s => .nil s
  | cons step rest ih =>
    obtain ⟨hstep, hrest⟩ := List.forall_mem_cons.mp h
    intro s
    exact (hstep s).append (ih hrest _)

theorem follows_moments (src : Sequence) (step : Step) :
    ∀ s, Follows s (moments src step s) (exec src step s).1 := by
  induction step with
  | simple step hstep =>
    intro s
    rw [moments_simple src s hstep]
    exact .cons ⟨s, .step step, (exec src step s).1⟩ (.nil _)
  | block name body raises ih =>
    intro s
    rw [moments]
    refine .cons ⟨s, .enter name, s.save name⟩ ?_
    refine (follows_momentsAll ih (s.save name)).append ?_
    exact .cons ⟨_, .leave raises, (exec src (.block name body raises) s).1⟩ (.nil _)

theorem follows_session (src : Sequence) (steps : List Step) (s : Session) :
    Follows s (momentsAll src steps s) (execAll src steps s).1 :=
  follows_momentsAll (fun step _ => follows_moments src step) s

theorem disciplined_session (src : Sequence) (steps : List Step) (s : Session) :
    ∀ m ∈ momentsAll src steps s, m.Disciplined :=
  disciplined_momentsAll (fun step _ => disciplined_moments src step) s

/-- A block goes back to its entry if it raises or if its own checkpoint has not been committed by
then, and otherwise stays where the body has ended. -/
theorem pos_block (src : Sequence) (name : String) (body : List Step) (raises : Bool)
    (s : Session) :
    ∃ c, (execAll src body (s.save name)).1.checkpoints[s.checkpoints.length]? = some c ∧
      c.pos = s.pos ∧
      (c.committed = true ↔
        ∃ m ∈ momentsAll src body (s.save name), m.Commits s.checkpoints.length) ∧
      (exec src (.block name body raises) s).1.pos =
        if raises = true ∨ c.committed = false then s.pos
        else (execAll src body (s.save name)).1.pos := by
  have hentry : (s.save name).checkpoints[s.checkpoints.length]? =
      some { pos := s.pos, committed := false } := List.getElem?_concat_length
  obtain ⟨c, hc, hpos, hcommitted⟩ := (follows_session src body (s.save name)).checkpoint
    (disciplined_session src body (s.save name)) hentry
  rw [or_iff_right Bool.false_ne_true] at hcommitted
  have hstart : c.pos = s.pos := hpos
  refine ⟨c, hc, hstart, hcommitted, ?_⟩
  rw [exec_block, leave, hc, ← hstart]
  simp only [Checkpoint.leave, Checkpoint.settle]
  cases raises with
  | true => simp
  | false => cases c.committed <;> simp

end Session

/-- Between any two moments of a session, a checkpoint keeps the position that it was created at,
and its flag is only ever set, by its own commit. A block ends at the position of its entry, unless
it ends normally with its own checkpoint committed. -/
theorem checkpoint_discipline (src : Sequence) (steps : List Step) (s : Session) :
    Session.Follows s (Session.momentsAll src steps s) (Session.execAll src steps s).1 ∧
    (∀ stretch t u, stretch <:+: Session.momentsAll src steps s → Session.Follows t stretch u →
      ∀ i c, t.checkpoints[i]? = some c → ∃ c', u.checkpoints[i]? = some c' ∧ c'.pos = c.pos ∧
        (c'.committed = true ↔ c.committed = true ∨ ∃ m ∈ stretch, m.Commits i)) ∧
    (∀ m ∈ Session.momentsAll src steps s, ∀ (i : Nat) (c : Checkpoint),
      m.before.checkpoints[i]? = none → m.after.checkpoints[i]? = some c →
        c = { pos := m.before.pos, committed := false }) ∧
    ∀ name body raises t, ∃ c,
      (Session.execAll src body (t.save name)).1.checkpoints[t.checkpoints.length]? = some c ∧
      c.pos = t.pos ∧
      (c.committed = true ↔
        ∃ m ∈ Session.momentsAll src body (t.save name), m.Commits t.checkpoints.length) ∧
      (Session.exec src (.block name body raises) t).1.pos =
        if raises = true ∨ c.committed = false then t.pos
        else (Session.execAll src body (t.save name)).1.pos := by
  have hmoments := Session.disciplined_session src steps s
  refine ⟨Session.follows_session src steps s, ?_, ?_, ?_⟩
  · intro stretch t u hstretch hfollows i c hc
    exact hfollows.checkpoint (fun m hm => hmoments m (hstretch.subset hm)) hc
  · exact fun m hm => (hmoments m hm).creates
  · exact fun name body raises t => Session.pos_block src name body raises t

/-- The inner block is committed and stays at 5, and the outer one raises and goes back to 2. -/
example :
    (Session.execAll (.text [])
      [.block "outer" [.commit "outer", .block "inner" [.seek 5, .commit "inner"] false] true]
      (.start 2)).1.pos = 2 := rfl

end Backtrack
