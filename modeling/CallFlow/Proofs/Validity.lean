import CallFlow.Proofs.Dangling
import CallFlow.Proofs.Registration
import Mathlib.Data.List.Perm.Subperm

/-!
# Compiled Workflows Pass the Checks

The runtime refuses a workflow without a start node, one with an edge that has no node at one of its
ends, and one that consists of nothing but the start. Only the last of these can come out of a
compilation. The settings may give the first edge an id that is made again later, and then an edge
takes the place of another; but whichever edge is stored, it joins two nodes, and no node is taken
away afterwards. And the start node stays where the settings want it, whatever steps have its id.

## Sections

1. What is checked
2. Edges join nodes
3. The start node
4. Enough nodes
5. Compiled workflows
-/

namespace CallFlow

open Attempt CallFlow.Flow

namespace Workflow

variable {w : Workflow} {startId : String}

/-! ## §1 What is checked -/

/-- Every edge joins two nodes. -/
def Joined (w : Workflow) : Prop :=
  ∀ e ∈ w.edges, Table.has w.nodes e.2.source = true ∧ Table.has w.nodes e.2.target = true

/-- There is nothing wrong with an edge just in case it joins two nodes. -/
theorem edgeErrors_eq_nil {id : String} {e : Edge} :
    w.edgeErrors id e = [] ↔
      Table.has w.nodes e.source = true ∧ Table.has w.nodes e.target = true := by
  unfold edgeErrors
  cases Table.has w.nodes e.target <;> cases Table.has w.nodes e.source <;> simp

/-- Where there is a start and the edges join nodes, the number of nodes is all that may be wrong. -/
theorem errors_eq_of_joined (hstart : w.startsAt startId = true) (h : w.Joined) :
    w.errors startId =
      if w.nodes.length ≤ 1 then ["Workflow must have at least one node besides start"] else [] := by
  have hedges : (w.edges.flatMap fun e => w.edgeErrors e.1 e.2) = [] := by
    rw [List.flatMap_eq_nil_iff]
    intro e he
    exact edgeErrors_eq_nil.2 (h e he)
  simp only [errors, hstart, hedges, if_true, List.append_nil]

/-- A workflow has one node at most just in case its start is all it has. -/
theorem length_nodes_le_one_iff (hnodup : (Table.names w.nodes).Nodup)
    (hstart : Table.has w.nodes startId = true) :
    w.nodes.length ≤ 1 ↔ ∀ id, Table.has w.nodes id = true → id = startId := by
  have hlength : w.nodes.length = (Table.names w.nodes).length := (List.length_map ..).symm
  simp only [hlength, Table.has_iff_mem_names] at hstart ⊢
  constructor
  · intro hle id hid
    -- Both ids are the one name that there is.
    obtain ⟨name, hnames⟩ := List.length_eq_one_iff.1
      (Nat.le_antisymm hle (List.length_pos_of_mem hstart))
    rw [hnames, List.mem_singleton] at hid hstart
    rw [hid, hstart]
  · intro hall
    have hsub : Table.names w.nodes ⊆ [startId] :=
      fun id hid => List.mem_singleton.2 (hall id hid)
    exact (List.subperm_of_subset hnodup hsub).length_le

end Workflow

/-! ## §2 Edges join nodes -/

namespace Assembly

variable {a : Assembly}

theorem joined_addGiven (h : a.workflow.Joined) (id : String) {e : Edge}
    (hsource : Table.has a.nodes e.source = true) (htarget : Table.has a.nodes e.target = true) :
    (a.addGiven id e).workflow.Joined := by
  unfold addGiven
  split
  · exact ends_addEdge (a := { a with made := a.made + 1 }) h _ hsource htarget
  · exact ends_addEdge h id hsource htarget

theorem joined_enter (h : a.workflow.Joined) (hstart : Table.has a.nodes a.startNodeId = true)
    (entry : Option String) : (a.enter entry).workflow.Joined := by
  rcases a.enter_cases entry with hsame | ⟨id, hid, hadded⟩
  · rwa [hsame]
  · rw [hadded]
    exact joined_addGiven h _ hstart hid

/-- A connection is only made between two nodes. -/
theorem joined_place (h : a.workflow.Joined) (c : Connection) : (a.place c).workflow.Joined := by
  unfold place
  split
  · exact h
  · rename_i hlost
    obtain ⟨hsource, htarget⟩ := lost?_eq_none.1 hlost
    exact ends_addEdge (a := { a with made := a.made + 1 }) h _ hsource htarget

end Assembly

namespace Flow.Passes

variable {f : Flow} (p : Passes f) (s : Settings)

theorem joined_result : (p.result s).workflow.Joined := by
  have hheld : (p.held s).workflow.Joined := by
    simp [Workflow.Joined, Assembly.workflow]
  have hhas : Table.has (p.held s).nodes (p.held s).startNodeId = true := by
    rw [held_startNodeId]
    exact p.has_start_held s
  exact Assembly.placeAll_invariant (P := fun a => a.workflow.Joined)
    (fun _ c h => Assembly.joined_place h c) (Assembly.joined_enter hheld hhas _) p.plan

/-! ## §3 The start node -/

/-- **The node under the id of the settings is the start**, and no other node is. -/
theorem isStart_result_iff {n : String × Node} (hn : n ∈ (p.result s).workflow.nodes) :
    n.2.kind.isStart = true ↔ n.1 = s.startNodeId := by
  have hget := (p.get?_node_iff s).2 hn
  by_cases hid : n.1 = s.startNodeId
  · rw [hid] at hget
    exact iff_of_true (p.start_result s hget) hid
  · -- Any other node is made by a step, and steps make no start.
    obtain ⟨t, -, hmakes⟩ := p.exists_makes s hid hget
    have hnot : n.2.kind.isStart = false := hmakes.not_isStart
    rw [hnot]
    exact iff_of_false Bool.false_ne_true hid

theorem has_start_result : Table.has (p.result s).workflow.nodes s.startNodeId = true :=
  (p.has_result s _).2 (Or.inl rfl)

/-- The id of the settings can be read off the workflow. -/
theorem startIds_result : (p.result s).workflow.startIds = [s.startNodeId] :=
  Workflow.startIds_eq_singleton (p.nodup_nodes_result s) (p.has_start_result s)
    fun _ hn => p.isStart_result_iff s hn

theorem startsAt_result : (p.result s).workflow.startsAt s.startNodeId = true := by
  obtain ⟨n, hn⟩ := Option.isSome_iff_exists.1 (p.has_start_result s)
  simp only [Workflow.startsAt, hn]
  exact p.start_result s hn

/-! ## §4 Enough nodes -/

/-- Nodes besides the start are those of steps with other ids. -/
theorem length_nodes_result_le_one_iff :
    (p.result s).workflow.nodes.length ≤ 1 ↔
      ¬ ∃ t ∈ f.steps, t.isActionable = true ∧ t.id ≠ s.startNodeId := by
  rw [Workflow.length_nodes_le_one_iff (p.nodup_nodes_result s) (p.has_start_result s)]
  constructor
  · rintro hall ⟨t, ht, hactionable, hid⟩
    exact hid (hall t.id ((p.has_result s _).2 (Or.inr ⟨t, ht, rfl, hactionable⟩)))
  · intro hnone id hhas
    rcases (p.has_result s id).1 hhas with hid | ⟨t, ht, hid, hactionable⟩
    · exact hid
    · by_contra hne
      exact hnone ⟨t, ht, hactionable, hid ▸ hne⟩

theorem errors_result :
    (p.result s).workflow.errors s.startNodeId =
      if (p.result s).workflow.nodes.length ≤ 1
      then ["Workflow must have at least one node besides start"] else [] :=
  Workflow.errors_eq_of_joined (p.startsAt_result s) (p.joined_result s)

end Flow.Passes

/-! ## §5 Compiled workflows -/

namespace Flow

/-- **Compiled workflows pass the checks**, whatever the settings are. The validator finds the start
where the settings want it and nothing wrong with any edge. So there is no error if some step makes a
node besides the start, and otherwise the missing node is the only error. -/
theorem compiled_passes_checks (f : Flow) (s : Settings) {c : Compilation} (h : f.Returns s c) :
    c.startId = s.startNodeId ∧ c.workflow.startsAt c.startId = true ∧
    (∀ e ∈ c.workflow.edges, c.workflow.edgeErrors e.1 e.2 = []) ∧
    (c.validate.errors = [] ↔ ∃ t ∈ f.steps, t.isActionable = true ∧ t.id ≠ s.startNodeId) ∧
    ((¬ ∃ t ∈ f.steps, t.isActionable = true ∧ t.id ≠ s.startNodeId) →
      c.validate.errors = ["Workflow must have at least one node besides start"]) := by
  obtain ⟨p, hp⟩ := h.passes
  have hworkflow : c.workflow = (p.result s).workflow := by rw [hp]
  have hstart : c.startId = s.startNodeId := by
    rw [Compilation.startId, hworkflow, p.startIds_result s]
    rfl
  have herrors : c.validate.errors =
      if (p.result s).workflow.nodes.length ≤ 1
      then ["Workflow must have at least one node besides start"] else [] := by
    rw [Compilation.validate, hstart, hworkflow]
    exact p.errors_result s
  have hcount := p.length_nodes_result_le_one_iff s
  refine ⟨hstart, ?_, fun e he => ?_, ?_, fun hnone => ?_⟩
  · rw [hstart, hworkflow]
    exact p.startsAt_result s
  · rw [hworkflow] at he ⊢
    exact Workflow.edgeErrors_eq_nil.2 (p.joined_result s e he)
  · rw [herrors, ← not_iff_not, ← hcount]
    simp
  · rw [herrors, if_pos (hcount.2 hnone)]

/-- A flow whose settings are going to collide with it: a step has the id of the start, and the edge
from the second step to the last is made with the id of the first edge. -/
def usurped : Flow where
  steps := [
    { id := "hub", type := some "message" },
    { id := "a", type := some "message" },
    { id := "c", type := some "condition" },
    { id := "a", type := some "question" },
    { id := "b", type := some "end" }]
  links := [
    { id := "e1", source := "a", target := "c" },
    { id := "e2", source := "c", target := "b" },
    { id := "e3", source := "b", target := "nowhere" }]

/-- The settings that collide with the flow. -/
def usurpedSettings : Settings := { startNodeId := "hub", startEdgeId := "edge_1_a_to_b" }

/-- The first edge is lost to another one, and yet the workflow passes the checks. -/
theorem compiled_passes_checks_usurped :
    ∃ c, usurped.Returns usurpedSettings c ∧
      Table.names c.workflow.edges = ["edge_1_a_to_b"] ∧ c.validate.errors = [] := by
  obtain ⟨c, hgives⟩ :=
    gives_of_succeeds (a := usurped.compile usurpedSettings) (by decide +kernel)
  have hreturns : usurped.Returns usurpedSettings c := .plain hgives
  have hnames : (usurped.compile usurpedSettings).outcome.map
      (fun c => Table.names c.workflow.edges) = .ok ["edge_1_a_to_b"] := by
    decide +kernel
  rw [hgives] at hnames
  obtain ⟨-, -, -, hiff, -⟩ := compiled_passes_checks usurped usurpedSettings hreturns
  exact ⟨c, hreturns, Except.ok.inj hnames, hiff.2 (by decide +kernel)⟩

end Flow

end CallFlow
