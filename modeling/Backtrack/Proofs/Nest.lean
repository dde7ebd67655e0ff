import Backtrack.Proofs.Building

/-!
# Nests

A nest is a tree of grammars that one combinator puts together, node by node. It can be joined as it
is, or taken apart into its leaves from left to right. If a node of the combinator may be replaced by
its parts among any other parts, then the nest may be replaced by its leaves.
-/

namespace Backtrack

namespace Grammar

inductive Nest
  | leaf (g : Grammar)
  | node (parts : List Nest)

namespace Nest

/-- Induction with a hypothesis for every part of a node. -/
@[induction_eliminator]
theorem induct {motive : Nest → Prop} (leaf : ∀ g, motive (.leaf g))
    (node : ∀ parts, (∀ t ∈ parts, motive t) → motive (.node parts)) (t : Nest) : motive t :=
  @Nest.rec motive (fun parts => ∀ t ∈ parts, motive t) leaf node (fun _ h => by cases h)
    (fun _ _ ht hrest _ h => (List.mem_cons.mp h).elim (fun he => he ▸ ht) (hrest _)) t

mutual

/-- The grammar of the nest, with the combinator at every node. -/
def join (combine : List Grammar → Grammar) : Nest → Grammar
  | .leaf g => g
  | .node parts => combine (joinAll combine parts)
termination_by structural t => t

def joinAll (combine : List Grammar → Grammar) : List Nest → List Grammar
  | [] => []
  | t :: rest => join combine t :: joinAll combine rest
termination_by structural ts => ts

end

mutual

/-- The leaves from left to right. -/
def leaves : Nest → List Grammar
  | .leaf g => [g]
  | .node parts => leavesAll parts
termination_by structural t => t

def leavesAll : List Nest → List Grammar
  | [] => []
  | t :: rest => leaves t ++ leavesAll rest
termination_by structural ts => ts

end

mutual

/-- The parts of each node. -/
def nodes : Nest → List (List Nest)
  | .leaf _ => []
  | .node parts => parts :: nodesAll parts
termination_by structural t => t

def nodesAll : List Nest → List (List Nest)
  | [] => []
  | t :: rest => nodes t ++ nodesAll rest
termination_by structural ts => ts

end

theorem mem_nodesAll {ts inner : List Nest} : inner ∈ nodesAll ts ↔ ∃ t ∈ ts, inner ∈ t.nodes := by
  induction ts with
  | nil => simp [nodesAll]
  | cons t ts ih => simp [nodesAll, ih]

theorem mem_nodes_of_part {t : Nest} {parts inner : List Nest} (ht : t ∈ parts)
    (h : inner ∈ t.nodes) : inner ∈ (node parts).nodes :=
  List.mem_cons_of_mem _ (mem_nodesAll.mpr ⟨t, ht, h⟩)

theorem joinAll_ne_nil {combine : List Grammar → Grammar} {ts : List Nest} (h : ts ≠ []) :
    joinAll combine ts ≠ [] := by
  obtain ⟨t, rest, rfl⟩ := List.exists_cons_of_ne_nil h
  exact List.cons_ne_nil _ _

/-- A nest whose nodes all have parts has a leaf. -/
theorem leaves_ne_nil {t : Nest} (h : ∀ inner ∈ t.nodes, inner ≠ []) : t.leaves ≠ [] := by
  induction t with
  | leaf g => exact List.cons_ne_nil g []
  | node parts ih =>
    cases parts with
    | nil => exact absurd rfl (h [] List.mem_cons_self)
    | cons t rest =>
      have ht : t.leaves ≠ [] := ih t List.mem_cons_self fun inner hinner =>
        h inner (mem_nodes_of_part List.mem_cons_self hinner)
      exact List.append_ne_nil_of_left_ne_nil ht _

end Nest

/-- Some grammars among others give some parsers among others, and one grammar in their place gives
one parser there. -/
theorem Builds.exists_splice {before gs behind : List Grammar} {all : List Parser}
    (h : Builds (before ++ (gs ++ behind)) all) :
    ∃ ps qs rs, all = ps ++ (qs ++ rs) ∧ Builds gs qs ∧
      ∀ (g : Grammar) (p : Parser), g.build.result = .ok p →
        Builds (before ++ ([g] ++ behind)) (ps ++ p :: rs) := by
  obtain ⟨ps, tail, rfl, hbefore, htail⟩ := h.exists_append
  obtain ⟨qs, rs, rfl, hqs, hbehind⟩ := htail.exists_append
  exact ⟨ps, qs, rs, rfl, hqs, fun _ _ hp => hbefore.append (.cons hp hbehind)⟩

section StandsFor

variable {combine : List Grammar → Grammar} {R : Parser → Parser → Prop}

/-- The first grammars may be combined in place of the second ones, among any others: what is built
is related by `R` to what was built before. -/
def StandsFor (combine : List Grammar → Grammar) (R : Parser → Parser → Prop)
    (gs hs : List Grammar) : Prop :=
  ∀ (before behind : List Grammar) (q : Parser),
    (combine (before ++ (hs ++ behind))).build.result = .ok q →
      ∃ p, (combine (before ++ (gs ++ behind))).build.result = .ok p ∧ R p q

namespace StandsFor

variable {gs gs' hs hs' : List Grammar}

theorem refl (hR : ∀ p, R p p) (gs : List Grammar) : StandsFor combine R gs gs :=
  fun _ _ q hq => ⟨q, hq, hR q⟩

theorem trans (hR : ∀ p q r, R p q → R q r → R p r) (h : StandsFor combine R gs gs')
    (h' : StandsFor combine R gs' hs) : StandsFor combine R gs hs := by
  intro before behind r hr
  obtain ⟨q, hq, hqr⟩ := h' before behind r hr
  obtain ⟨p, hp, hpq⟩ := h before behind q hq
  exact ⟨p, hp, hR p q r hpq hqr⟩

/-- Each of two neighbours is replaced with the other one among its surroundings. -/
theorem append (hR : ∀ p q r, R p q → R q r → R p r) (h : StandsFor combine R gs gs')
    (h' : StandsFor combine R hs hs') : StandsFor combine R (gs ++ hs) (gs' ++ hs') := by
  intro before behind r hr
  have hright := h' (before ++ gs') behind
  simp only [List.append_assoc] at hright hr ⊢
  obtain ⟨q, hq, hqr⟩ := hright r hr
  obtain ⟨p, hp, hpq⟩ := h before (hs ++ behind) q hq
  exact ⟨p, hp, hR p q r hpq hqr⟩

end StandsFor

namespace Nest

variable (hrefl : ∀ p, R p p) (htrans : ∀ p q r, R p q → R q r → R p r)

include hrefl htrans

theorem joinAll_standsFor {ts : List Nest}
    (h : ∀ t ∈ ts, StandsFor combine R [t.join combine] t.leaves) :
    StandsFor combine R (joinAll combine ts) (leavesAll ts) := by
  induction ts with
  | nil => exact .refl hrefl []
  | cons t ts ih =>
    have hrest := ih fun t' ht' => h t' (List.mem_cons_of_mem t ht')
    exact (h t List.mem_cons_self).append htrans hrest

/-- Node by node from the inside, the parts of a nest are replaced by its leaves. -/
theorem join_standsFor (t : Nest)
    (h : ∀ inner ∈ t.nodes,
      StandsFor combine R [combine (joinAll combine inner)] (joinAll combine inner)) :
    StandsFor combine R [t.join combine] t.leaves := by
  induction t with
  | leaf g => exact .refl hrefl [g]
  | node parts ih =>
    refine (h parts List.mem_cons_self).trans htrans (joinAll_standsFor hrefl htrans ?_)
    intro t ht
    exact ih t ht fun inner hinner => h inner (mem_nodes_of_part ht hinner)

/-- The leaves of a node are combined as its parts are. -/
theorem exists_join_node {parts : List Nest}
    (h : ∀ inner ∈ (node parts).nodes,
      StandsFor combine R [combine (joinAll combine inner)] (joinAll combine inner)) {flat : Parser}
    (hflat : (combine (node parts).leaves).build.result = .ok flat) :
    ∃ p, ((node parts).join combine).build.result = .ok p ∧ R p flat := by
  have hparts : StandsFor combine R (joinAll combine parts) (leavesAll parts) := by
    refine joinAll_standsFor hrefl htrans ?_
    intro t ht
    exact join_standsFor hrefl htrans t fun inner hinner => h inner (mem_nodes_of_part ht hinner)
  have hbuild := hparts [] [] flat
  simp only [List.nil_append, List.append_nil] at hbuild
  exact hbuild hflat

end Nest

end StandsFor

end Grammar

end Backtrack
