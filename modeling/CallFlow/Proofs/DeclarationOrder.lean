import CallFlow.Proofs.Inertness
import CallFlow.Proofs.Registration
import CallFlow.Proofs.SameRoads

/-!
# The Order of Declaration

In what order a flow declares its steps matters little, as long as no id is declared twice. Looking
up a step gives the same answer in whatever order the steps stand, so the links stand for the same
connections; and what is held under an id is the node of its one step. The order of the steps can
be seen in the order of the nodes and of the tool ids, and it may decide which step is the entry.
Links decide everything else.

## Sections

1. Rearranged flows
2. What is found under an id
3. Nodes
4. Edges
5. Compiled flows
-/

namespace CallFlow.Flow

open Attempt

/-! ## §1 Rearranged flows -/

/-- The second flow declares the steps of the first in some order, each id once, and has the same
links. -/
structure Rearranged (f g : Flow) : Prop where
  links : g.links = f.links
  steps : g.steps.Perm f.steps
  distinct : f.DistinctIds

variable {f g : Flow}

/-- With distinct ids, the last step of an id that has a node is the only step of the id. -/
theorem DistinctIds.lastActionable?_eq_some (h : f.DistinctIds) {id : String} {t : Step} :
    f.lastActionable? id = some t ↔ (t ∈ f.steps ∧ t.id = id) ∧ t.isActionable = true := by
  constructor
  · intro hlast
    have hfound := List.find?_some hlast
    simp only [Bool.and_eq_true, decide_eq_true_eq] at hfound
    exact ⟨⟨List.mem_reverse.1 (List.mem_of_find?_eq_some hlast), hfound.1⟩, hfound.2⟩
  · rintro ⟨hmem, hactionable⟩
    exact lastActionable?_of_step? (h.step?_eq_some.2 hmem) hactionable

namespace Rearranged

variable (h : f.Rearranged g) {id : String}

include h

theorem distinct' : g.DistinctIds := (h.steps.map Step.id).nodup_iff.2 h.distinct

/-! ## §2 What is found under an id -/

theorem step? : g.step? id = f.step? id := by
  apply Option.ext
  intro t
  rw [h.distinct'.step?_eq_some, h.distinct.step?_eq_some, h.steps.mem_iff]

theorem hasActionable : g.HasActionable id ↔ f.HasActionable id := by
  simp only [HasActionable, h.steps.mem_iff]

theorem lastActionable? : g.lastActionable? id = f.lastActionable? id := by
  apply Option.ext
  intro t
  rw [h.distinct'.lastActionable?_eq_some, h.distinct.lastActionable?_eq_some, h.steps.mem_iff]

/-- Whoever follows the links finds the same steps. -/
theorem sameRoads : f.SameRoads g where
  links := h.links
  isTrigger := by
    intro id
    rw [isTrigger, isTrigger, h.step?]
  isBranch := by
    intro id
    exact h.steps.any_eq
  resolve := by
    intro id l
    rw [resolve, resolve, linksInto, linksInto, h.links, h.step?]
  ofLink := by
    intro l
    rw [h.step?]

/-- The results of compiling the steps are rearranged in the same way. -/
theorem compiled_perm (p : Passes f) (p' : Passes g) : p'.compiled.Perm p.compiled := by
  obtain ⟨compiled, hcompiled, hperm⟩ := List.perm_comp_forall₂ h.steps p.compiles
  rwa [CompilesTo.unique p'.compiles hcompiled]

/-- One flow has an entry just in case the other has. -/
theorem entry_isSome (p : Passes f) (p' : Passes g) :
    p'.entry.stepId.isSome = p.entry.stepId.isSome := by
  rw [Bool.eq_iff_iff, Option.isSome_iff_exists, Option.isSome_iff_exists]
  constructor
  · rintro ⟨id, hid⟩
    exact exists_stepId_of_entry p.entry_gives
      (h.hasActionable.1 (hasActionable_of_entry p'.entry_gives hid))
  · rintro ⟨id, hid⟩
    exact exists_stepId_of_entry p'.entry_gives
      (h.hasActionable.2 (hasActionable_of_entry p.entry_gives hid))

/-! ## §3 Nodes -/

variable (p : Passes f) (p' : Passes g) (s : Settings)

/-- Under every id the same node is held. -/
theorem get?_held (id : String) :
    Table.get? (p'.held s).nodes id = Table.get? (p.held s).nodes id := by
  by_cases hid : id = s.startNodeId
  · rw [hid]
    exact (Assembly.get?_start_holdAll s _).trans (Assembly.get?_start_holdAll s _).symm
  · have hlast : g.lastActionable? id = f.lastActionable? id := h.lastActionable?
    rcases p.compiles.held_cases hid with ⟨t, c, node, ht, hc, hnode, hget⟩ | ⟨hnone, hget⟩
    · rcases p'.compiles.held_cases hid with
        ⟨t', c', node', ht', hc', hnode', hget'⟩ | ⟨hnone', -⟩
      · -- It is the node that the one step of the id is compiled to.
        obtain rfl := Option.some.inj (ht'.symm.trans (hlast.trans ht))
        obtain rfl := Gives.unique hc' hc
        rw [Passes.held, hget', Passes.held, hget, ← hnode', ← hnode]
      · have hboth := hnone'.symm.trans (hlast.trans ht)
        cases hboth
    · rcases p'.compiles.held_cases hid with ⟨t', -, -, ht', -⟩ | ⟨-, hget'⟩
      · have hboth := ht'.symm.trans (hlast.trans hnone)
        cases hboth
      · rw [Passes.held, hget', Passes.held, hget]

/-- Both results have nodes under the same ids. -/
theorem has_result (id : String) :
    Table.has (p'.result s).workflow.nodes id = Table.has (p.result s).workflow.nodes id := by
  rw [Table.has_congr (p'.names_nodes_result s), Table.has_congr (p.names_nodes_result s),
    Table.has, Table.has, h.get?_held]

/-! ## §4 Edges -/

/-- The same connections are made. -/
theorem made_eq :
    p'.plan.filter (p'.result s).workflow.joins = p.plan.filter (p.result s).workflow.joins := by
  have hjoins : (p'.result s).workflow.joins = (p.result s).workflow.joins := by
    funext c
    simp only [Workflow.joins, h.has_result p p' s]
  rw [h.sameRoads.plan p p', hjoins]

theorem dropped_eq : (p'.result s).dropped = (p.result s).dropped := by
  rw [p'.dropped_result, p.dropped_result, h.sameRoads.plan p p']
  simp only [Workflow.joins, h.has_result p p' s]

variable {s}

/-- The first edges may lead to different entries. Otherwise they are the same. -/
theorem entered_edges (hne : s.startEdgeId.isEmpty = false) :
    (p'.entered s).edges.map (fun e => (e.1, e.2.source)) =
      (p.entered s).edges.map fun e => (e.1, e.2.source) := by
  have hentry := h.entry_isSome p p'
  rw [p'.edges_entered s hne, p.edges_entered s hne]
  cases hid : p.entry.stepId <;> cases hid' : p'.entry.stepId <;> simp_all [Passes.startEdge]

/-- The edges besides the first are the same, in the same places. -/
theorem getElem?_edges (hs : ¬ Assembly.LooksGenerated s.startEdgeId)
    (hne : s.startEdgeId.isEmpty = false) {i : Nat} {e : String × Edge}
    (he : e.1 ≠ s.startEdgeId) :
    (p'.result s).workflow.edges[i]? = some e ↔ (p.result s).workflow.edges[i]? = some e := by
  have hlength := congrArg List.length (h.entered_edges p p' hne)
  rw [List.length_map, List.length_map] at hlength
  rw [p'.edges_result s hs hne, p.edges_result s hs hne, h.made_eq p p' s, List.getElem?_append,
    List.getElem?_append, hlength]
  split
  · -- Here only the first edge can stand.
    have hnot : ∀ {f : Flow} (p : Passes f), (p.entered s).edges[i]? ≠ some e := by
      intro f p hfirst
      exact he (p.of_mem_entered s hne (List.mem_of_getElem? hfirst)).1
    exact iff_of_false (hnot p') (hnot p)
  · rfl

theorem idsFrom_eq (hs : ¬ Assembly.LooksGenerated s.startEdgeId)
    (hne : s.startEdgeId.isEmpty = false) (id : String) :
    (p'.result s).workflow.idsFrom id = (p.result s).workflow.idsFrom id := by
  -- Which edges leave an id can be told from their ids and their sources.
  have hids : ∀ w : Workflow, w.idsFrom id =
      ((w.edges.map fun e => (e.1, e.2.source)).filter fun e => e.2 = id).map Prod.fst := by
    intro w
    rw [List.filter_map, List.map_map]
    rfl
  rw [hids, hids, p'.edges_result s hs hne, p.edges_result s hs hne, h.made_eq p p' s,
    List.map_append, List.map_append, h.entered_edges p p' hne]

/-- **Under every id both results have the same node.** -/
theorem get?_node_eq (hs : ¬ Assembly.LooksGenerated s.startEdgeId)
    (hne : s.startEdgeId.isEmpty = false) (id : String) :
    Table.get? (p'.result s).workflow.nodes id = Table.get? (p.result s).workflow.nodes id := by
  rw [p'.get?_node_result hs, p.get?_node_result hs, h.get?_held p p' s,
    h.idsFrom_eq p p' hs hne]

variable (s) in
theorem toolIds_perm :
    (p'.result s).facts.toolIds.Perm (p.result s).facts.toolIds := by
  have hids : ∀ {f : Flow} (p : Passes f),
      (p.result s).facts.toolIds = p.compiled.flatMap Compiled.toolIds := by
    intro f p
    show (p.compiled.foldl Facts.absorb {}).toolIds = _
    rw [Facts.foldl_absorb]
    rfl
  rw [hids p', hids p]
  exact (h.compiled_perm p p').flatMap_right _

end Rearranged

/-! ## §5 Compiled flows -/

/-- **The order of declaration does not show in the edges.** Two flows with the same links, which
declare the same steps in different orders and no id twice, are compiled to the same edges in the
same places, but for the one to the entry. They drop the same links, they have the same node under
every id, with the same list of edges, and they need the same tools. Both have an entry or neither
has. -/
theorem declaration_order_irrelevant (f g : Flow) (hlinks : g.links = f.links)
    (hsteps : g.steps.Perm f.steps) (hids : f.DistinctIds) {c d : Compilation}
    (hc : f.Returns {} c) (hd : g.Returns {} d) :
    (∀ (i : Nat) (e : String × Edge), e.1 ≠ "start_to_entry" →
      (d.workflow.edges[i]? = some e ↔ c.workflow.edges[i]? = some e)) ∧
    d.dropped = c.dropped ∧
    (∀ id, Table.get? d.workflow.nodes id = Table.get? c.workflow.nodes id) ∧
    d.facts.toolIds.Perm c.facts.toolIds ∧
    d.entryId.isSome = c.entryId.isSome := by
  obtain ⟨p, hp⟩ := hc.passes
  obtain ⟨p', hp'⟩ := hd.passes
  have h : f.Rearranged g := ⟨hlinks, hsteps, hids⟩
  have hs : ¬ Assembly.LooksGenerated ({} : Settings).startEdgeId := by decide
  rw [hp, hp']
  refine ⟨fun i e he => ?_, h.dropped_eq p p' {}, ?_, h.toolIds_perm p p' {}, h.entry_isSome p p'⟩
  · exact h.getElem?_edges p p' hs rfl he
  · exact h.get?_node_eq p p' hs rfl

/-- The crossroads, declared from the end. -/
def crossroadsBackwards : Flow := { crossroads with steps := crossroads.steps.reverse }

theorem declaration_order_irrelevant_crossroads :
    crossroadsBackwards.links = crossroads.links ∧
      crossroadsBackwards.steps.Perm crossroads.steps ∧ crossroads.DistinctIds ∧
      ∃ c d, crossroads.Returns {} c ∧ crossroadsBackwards.Returns {} d ∧
        d.dropped = c.dropped ∧
        ∀ id, Table.get? d.workflow.nodes id = Table.get? c.workflow.nodes id := by
  have hperm : crossroadsBackwards.steps.Perm crossroads.steps := List.reverse_perm _
  have hids : crossroads.DistinctIds := by decide
  obtain ⟨c, hc⟩ := gives_of_succeeds (a := crossroads.compile {}) (by decide +kernel)
  obtain ⟨d, hd⟩ := gives_of_succeeds (a := crossroadsBackwards.compile {}) (by decide +kernel)
  obtain ⟨-, hdropped, hnodes, -⟩ :=
    declaration_order_irrelevant crossroads crossroadsBackwards rfl hperm hids (.plain hc)
      (.plain hd)
  exact ⟨rfl, hperm, hids, c, d, .plain hc, .plain hd, hdropped, hnodes⟩

end CallFlow.Flow
