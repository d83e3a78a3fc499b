import CallFlow.Proofs.Declared
import CallFlow.Proofs.Integrity

/-!
# The Plan of a Compilation

The links of a flow say, one after the other, which connections are wanted. Whatever is then
made of the plan, nothing in it gets lost: a connection between two nodes becomes an edge, and
any other is recorded as dropped. Dropped connections take no number, so the edges are numbered
without gaps.

## Sections

1. Following a plan
2. What a link calls for
3. Edges and dropped connections of a result
4. Compiled flows follow their plan
-/

namespace CallFlow

open Attempt

/-! ## §1 Following a plan -/

/-- Whether both ends of a connection are nodes of the workflow. -/
def Workflow.joins (w : Workflow) (c : Flow.Connection) : Bool :=
  Table.has w.nodes c.source && Table.has w.nodes c.target

/-- Every connection of the plan is made or recorded as dropped, in order. Edges besides the
first are numbered from one without gaps. -/
structure Compilation.Follows (c : Compilation) (plan : List Flow.Connection) : Prop where
  edges : (c.workflow.edges.filter fun e => e.1 ≠ "start_to_entry") =
    ((plan.filter c.workflow.joins).zipIdx 1).map fun (x, i) =>
      ("edge_" ++ toString i ++ "_" ++ Text.takeFirst 8 x.source ++ "_to_" ++
          Text.takeFirst 8 x.target,
        { source := x.source, target := x.target, condition := x.condition })
  /-- The missing source counts before the missing target. -/
  dropped : (c.dropped.map fun d => (d.linkId, d.source, d.target, d.reason.text)) =
    (plan.filter fun x => !c.workflow.joins x).map fun x =>
      (some x.linkId, x.source, x.target,
        if Table.has c.workflow.nodes x.source then "target node was not compiled"
        else "source node was not compiled")

namespace Flow

/-! ## §2 What a link calls for -/

/-- The connections that a link calls for. -/
inductive Calls (f : Flow) (l : Link) : List Connection → Prop where
  /-- The start node has an edge of its own, so links at triggers are passed over. -/
  | atTrigger (h : f.HasTrigger l.source ∨ f.HasTrigger l.target) : Calls f l []
  /-- What leaves a branch is seen to when the branch is entered. -/
  | leavesBranch (h : f.HasBranch l.source) : Calls f l []
  | entersBranch {edges : List ExpandedEdge}
      (htrigger : ¬ (f.HasTrigger l.source ∨ f.HasTrigger l.target))
      (hsource : ¬ f.HasBranch l.source) (htarget : f.HasBranch l.target)
      (h : (f.expand l).Gives edges) :
      Calls f l (edges.map fun e => ⟨e.source, e.target, e.condition, l.id⟩)
  | direct (htrigger : ¬ (f.HasTrigger l.source ∨ f.HasTrigger l.target))
      (hsource : ¬ f.HasBranch l.source) (htarget : ¬ f.HasBranch l.target) :
      Calls f l [⟨l.source, l.target, Transition.ofLink (f.step? l.source) l, l.id⟩]

variable {f : Flow}

/-- The compiler connects what the links call for. -/
theorem calls_of_gives (hf : f.DistinctIds) {l : Link} {cs : List Connection}
    (h : (f.connectionsOf l).Gives cs) : f.Calls l cs := by
  unfold connectionsOf at h
  split at h
  · -- Triggers are looked for at both ends, branches at the source.
    rename_i hskip
    rw [gives_pure.1 h]
    simp only [Bool.or_eq_true, hf.isTrigger_iff, isBranch_iff] at hskip
    rcases hskip with htrigger | hbranch
    · exact .atTrigger htrigger
    · exact .leavesBranch hbranch
  · rename_i hskip
    simp only [Bool.or_eq_true, hf.isTrigger_iff, isBranch_iff] at hskip
    obtain ⟨htrigger, hsource⟩ := not_or.1 hskip
    split at h
    · rename_i htarget
      obtain ⟨edges, hedges, hcs⟩ := gives_bind.1 h
      rw [gives_pure.1 hcs]
      exact .entersBranch htrigger hsource (isBranch_iff.1 htarget) hedges
    · rename_i htarget
      rw [gives_pure.1 h]
      exact .direct htrigger hsource fun hbranch => htarget (isBranch_iff.2 hbranch)

/-! ## §3 Edges and dropped connections of a result -/

namespace Passes

variable (p : Passes f) (s : Settings)

/-- Connections change no name of a node. -/
theorem names_nodes_result :
    Table.names (p.result s).workflow.nodes = Table.names (p.held s).nodes :=
  (Assembly.names_nodes_placeAll ..).trans (p.names_nodes_entered s)

theorem nodup_nodes_result : (Table.names (p.result s).workflow.nodes).Nodup := by
  rw [p.names_nodes_result s]
  exact (p.intact_held s).nodes_nodup

/-- What is lost can be told from the nodes of the result. -/
theorem lost?_entered (c : Connection) :
    (p.entered s).lost? c = none ↔ (p.result s).workflow.joins c = true := by
  have hhas := Table.has_congr ((p.names_nodes_result s).trans (p.names_nodes_entered s).symm)
  rw [Assembly.lost?_eq_none, Workflow.joins, hhas, hhas, Bool.and_eq_true]

/-- The connections that are not lost are those between nodes of the result. -/
theorem kept_eq_joins :
    (fun c => ((p.entered s).lost? c).isNone) = (p.result s).workflow.joins := by
  funext c
  rw [Bool.eq_iff_iff, Option.isNone_iff_eq_none, p.lost?_entered]

/-- When the first edge is given its id, entering makes none. -/
theorem made_entered (hs : s.startEdgeId.isEmpty = false) : (p.entered s).made = 0 := by
  unfold entered
  rcases (p.held s).enter_cases p.entry.stepId with hsame | ⟨id, -, hadded⟩
  · rw [hsame, held_made]
  · -- A given id takes no number.
    rw [hadded, Assembly.addGiven, held_startEdgeId, hs]
    exact p.held_made s

/-- The first edge has the id of the settings and leaves the start, if there is a first edge. -/
theorem of_mem_entered (hs : s.startEdgeId.isEmpty = false) {e : String × Edge}
    (he : e ∈ (p.entered s).edges) : e.1 = s.startEdgeId ∧ e.2.source = s.startNodeId := by
  unfold entered at he
  rcases (p.held s).enter_cases p.entry.stepId with hsame | ⟨id, -, hadded⟩
  · simp [hsame] at he
  · rw [hadded, Assembly.addGiven, held_startEdgeId, hs] at he
    simp [Assembly.addEdge, Table.set] at he
    rw [he]
    exact ⟨rfl, rfl⟩

/-- **The edges of a result** are the first edge and one edge for every connection between two
nodes. -/
theorem edges_result (hs : ¬ Assembly.LooksGenerated s.startEdgeId)
    (hne : s.startEdgeId.isEmpty = false) :
    (p.result s).workflow.edges = (p.entered s).edges ++
      Assembly.madeEntries 0 (p.plan.filter (p.result s).workflow.joins) := by
  rw [← p.kept_eq_joins, ← p.made_entered s hne]
  exact (p.knowsIds_entered s hs).edges_placeAll p.plan

/-- The edges of a result besides the first. -/
theorem later_edges_result (hs : ¬ Assembly.LooksGenerated s.startEdgeId)
    (hne : s.startEdgeId.isEmpty = false) :
    ((p.result s).workflow.edges.filter fun e => e.1 ≠ s.startEdgeId) =
      Assembly.madeEntries 0 (p.plan.filter (p.result s).workflow.joins) := by
  rw [p.edges_result s hs hne, List.filter_append]
  -- Only the first edge has the given id: those of the others are made.
  have hfirst : ((p.entered s).edges.filter fun e => e.1 ≠ s.startEdgeId) = [] := by
    rw [List.filter_eq_nil_iff]
    intro e he
    simp [(p.of_mem_entered s hne he).1]
  have hlater : ∀ cs, (Assembly.madeEntries 0 cs).filter (fun e => e.1 ≠ s.startEdgeId) =
      Assembly.madeEntries 0 cs := by
    intro cs
    rw [List.filter_eq_self]
    intro e he
    obtain ⟨q, -, rfl⟩ := List.mem_map.1 he
    exact decide_eq_true (Assembly.edgeId_ne_of_not_looksGenerated hs _ _ _)
  rw [hfirst, hlater, List.nil_append]

/-- What is recorded of a connection that does not join two nodes: the missing source counts
before the missing target. -/
theorem dropped_result :
    (p.result s).dropped =
      (p.plan.filter fun c => !(p.result s).workflow.joins c).map fun c =>
        { linkId := some c.linkId
          source := c.source
          target := c.target
          reason := if Table.has (p.result s).workflow.nodes c.source then .targetMissing
            else .sourceMissing } := by
  rw [p.dropped_eq_filterMap, ← List.filterMap_eq_map', List.filterMap_filter]
  -- The reason depends on which of the two ends is a node.
  refine List.filterMap_congr fun c _ => ?_
  have hhas := Table.has_congr ((p.names_nodes_result s).trans (p.names_nodes_entered s).symm)
  simp only [Workflow.joins, Assembly.lost?, Assembly.missingEnd?, hhas]
  cases Table.has (p.entered s).nodes c.source <;>
    cases Table.has (p.entered s).nodes c.target <;> rfl

end Passes

/-! ## §4 Compiled flows follow their plan -/

/-- **Whatever is compiled follows its plan**, which is what the links call for, one after the
other. -/
theorem compiled_follows_plan (f : Flow) (hf : f.DistinctIds) {c : Compilation}
    (h : f.Returns {} c) :
    ∃ called : List (List Connection), List.Forall₂ f.Calls f.links called ∧
      c.Follows called.flatten := by
  obtain ⟨p, hp⟩ := h.passes
  have hs : ¬ Assembly.LooksGenerated ({} : Settings).startEdgeId := by decide
  refine ⟨p.called, p.calls.imp fun l cs hcs => calls_of_gives hf hcs, ?_⟩
  rw [hp]
  refine { edges := p.later_edges_result {} hs rfl, dropped := ?_ }
  show (p.result {}).dropped.map _ = _
  rw [p.dropped_result, List.map_map]
  refine List.map_congr_left fun x _ => ?_
  simp only [Function.comp_apply]
  split <;> rfl

/-- The crossroads are compiled and follow their plan. -/
theorem compiled_follows_plan_crossroads :
    crossroads.DistinctIds ∧ ∃ c, crossroads.Returns {} c ∧
      ∃ called : List (List Connection), List.Forall₂ crossroads.Calls crossroads.links called ∧
        c.Follows called.flatten := by
  have hids : crossroads.DistinctIds := by decide
  obtain ⟨c, hc⟩ := gives_of_succeeds (a := crossroads.compile {}) (by decide +kernel)
  have hreturns : crossroads.Returns {} c := .plain hc
  exact ⟨hids, c, hreturns, compiled_follows_plan crossroads hids hreturns⟩

end Flow

end CallFlow
