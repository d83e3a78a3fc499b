import CallFlow.Proofs.Compiling
import CallFlow.Proofs.StepNodes
import Mathlib.Data.List.Perm.Basic

/-!
# The Integrity of Compiled Workflows

A workflow says twice which edges leave a node: every edge names its source, and every node
lists its edges in the order in which they are tried. A workflow is intact when both agree,
when its edges join its nodes, and when it has one start node under the expected id.

Every step of an assembly keeps its workflow intact. Nodes are held before there is any edge,
so a step that is declared twice cannot leave edges behind; and an edge comes with an id that
is not in use, so no edge takes the place of another.

## Sections

1. Intact workflows
2. Start nodes
3. Steps of an assembly
4. Edges and lists agree
5. Compiled workflows
-/

namespace CallFlow

open Attempt CallFlow.Flow

/-! ## §1 Intact workflows -/

namespace Workflow

/-- The ids of the edges that leave a node, in order. -/
def idsFrom (w : Workflow) (id : String) : List String :=
  Table.names (w.edges.filter fun e => e.2.source = id)

/-- The edges join nodes, the nodes list their edges, and one node is the start. -/
structure Intact (w : Workflow) (startId : String) : Prop where
  nodes_nodup : (Table.names w.nodes).Nodup
  edges_nodup : (Table.names w.edges).Nodup
  has_start : Table.has w.nodes startId = true
  isStart_iff : ∀ n ∈ w.nodes, n.2.kind.isStart = true ↔ n.1 = startId
  ends : ∀ e ∈ w.edges,
    Table.has w.nodes e.2.source = true ∧ Table.has w.nodes e.2.target = true
  listed : ∀ n ∈ w.nodes, n.2.edgeOrder = w.idsFrom n.1

/-! ## §2 What follows from integrity -/

/-- If no name is there twice, and the nodes that are starts are those under one name, that name is
the only id of a start. -/
theorem startIds_eq_singleton {w : Workflow} {startId : String}
    (hnodup : (Table.names w.nodes).Nodup) (hhas : Table.has w.nodes startId = true)
    (hiff : ∀ n ∈ w.nodes, n.2.kind.isStart = true ↔ n.1 = startId) :
    w.startIds = [startId] := by
  have hstart : w.nodes.filter (fun n => n.2.kind.isStart) =
      w.nodes.filter fun n => n.1 == startId := by
    refine List.filter_congr fun n hn => ?_
    rw [Bool.eq_iff_iff, hiff n hn, beq_iff_eq]
  have hcount : (Table.names w.nodes).count startId = 1 :=
    List.count_eq_one_of_mem hnodup ((Table.has_iff_mem_names ..).1 hhas)
  calc w.startIds
      = (w.nodes.filter fun n => n.1 == startId).map Prod.fst := by rw [startIds, hstart]
    _ = (Table.names w.nodes).filter (· == startId) := by
      rw [Table.names, List.filter_map]
      rfl
    _ = [startId] := by rw [List.filter_beq, hcount, List.replicate_one]

namespace Intact

variable {w : Workflow} {startId : String}

/-- There is one start node, and it is where it is expected. -/
theorem startIds_eq (h : w.Intact startId) : w.startIds = [startId] :=
  startIds_eq_singleton h.nodes_nodup h.has_start h.isStart_iff

/-- What a node lists are edges that leave that very node. -/
theorem leaves (h : w.Intact startId) {n : String × Node} (hn : n ∈ w.nodes) {id : String}
    (hid : id ∈ n.2.edgeOrder) : ∃ e, Table.get? w.edges id = some e ∧ e.source = n.1 := by
  rw [h.listed n hn] at hid
  obtain ⟨⟨id, e⟩, he, rfl⟩ := List.mem_map.1 hid
  obtain ⟨hmem, hsource⟩ := List.mem_filter.1 he
  exact ⟨e, (Table.get?_eq_some_iff_mem h.edges_nodup).2 hmem, of_decide_eq_true hsource⟩

private theorem flatMap_single {nodes : List String} (hnodes : nodes.Nodup) {source : String}
    (hsource : source ∈ nodes) (id : String) :
    (nodes.flatMap fun k => if source = k then [id] else []) = [id] := by
  induction nodes with
  | nil => simp at hsource
  | cons k rest ih =>
    obtain ⟨hk, hrest⟩ := List.nodup_cons.1 hnodes
    by_cases h : source = k
    · -- No later name is the source again.
      have hnone : (rest.flatMap fun k => if source = k then [id] else []) = [] := by
        refine List.flatMap_eq_nil_iff.2 fun k' hk' => if_neg ?_
        rintro rfl
        exact hk (h ▸ hk')
      rw [List.flatMap_cons, if_pos h, hnone, List.append_nil]
    · have hmem : source ∈ rest := (List.mem_cons.1 hsource).resolve_left h
      rw [List.flatMap_cons, if_neg h, List.nil_append, ih hrest hmem]

/-- Splitting edges by their source, over nodes that have no name twice and include every
source, gives every edge once. -/
theorem perm_flatMap_sources {nodes : List String} (hnodes : nodes.Nodup) (edges : Table Edge)
    (hsources : ∀ e ∈ edges, e.2.source ∈ nodes) :
    (nodes.flatMap fun id => Table.names (edges.filter fun e => e.2.source = id)).Perm
      (Table.names edges) := by
  induction edges with
  | nil => simp [Table.names]
  | cons e rest ih =>
    have hrest := ih fun e' he' => hsources e' (List.mem_cons_of_mem _ he')
    have hfirst : (nodes.flatMap fun id => if e.2.source = id then [e.1] else []) = [e.1] :=
      flatMap_single hnodes (hsources e (List.mem_cons_self ..)) e.1
    have hsplit : (fun id => Table.names ((e :: rest).filter fun e' => e'.2.source = id)) =
        fun id => (if e.2.source = id then [e.1] else []) ++
          Table.names (rest.filter fun e' => e'.2.source = id) := by
      funext id
      by_cases h : e.2.source = id <;> simp [h, Table.names]
    rw [hsplit]
    -- The first edge turns up once among the nodes, and may be moved to the front.
    refine (List.flatMap_append_perm nodes _ _).symm.trans ?_
    rw [hfirst]
    exact hrest.cons e.1

/-- Over all nodes, every edge is listed once. -/
theorem perm_edgeOrders (h : w.Intact startId) :
    (w.nodes.flatMap fun n => n.2.edgeOrder).Perm (Table.names w.edges) := by
  have hlists : (w.nodes.flatMap fun n => n.2.edgeOrder) =
      (Table.names w.nodes).flatMap w.idsFrom := by
    rw [Table.names, List.flatMap_map]
    exact List.flatMap_congr fun n hn => h.listed n hn
  rw [hlists]
  exact perm_flatMap_sources h.nodes_nodup w.edges fun e he =>
    (Table.has_iff_mem_names ..).1 (h.ends e he).1

end Intact

end Workflow

/-! ## §3 What the steps of an assembly keep -/

namespace Assembly

/-- The workflow of the assembly is intact. -/
def Intact (a : Assembly) : Prop := a.workflow.Intact a.startNodeId

theorem intact_begin (startNodeId startEdgeId : String) (strict : Bool) :
    (begin startNodeId startEdgeId strict).Intact where
  nodes_nodup := List.nodup_singleton startNodeId
  edges_nodup := List.nodup_nil
  has_start := by simp [begin, workflow, Table.has, Table.get?]
  isStart_iff := by
    intro n hn
    obtain rfl := List.mem_singleton.1 hn
    simp [startNode, NodeKind.isStart, begin]
  ends := nofun
  listed := by
    intro n hn
    obtain rfl := List.mem_singleton.1 hn
    rfl

/-- Before there is any edge, a fresh node may take any place but that of the start. -/
theorem Intact.set {a : Assembly} (h : a.Intact) (hedges : a.edges = []) {id : String}
    (hid : id ≠ a.startNodeId) {node : Node} (horder : node.edgeOrder = [])
    (hkind : node.kind.isStart = false) :
    ({ a with nodes := Table.set a.nodes id node } : Assembly).Intact where
  nodes_nodup := Table.nodup_names_set h.nodes_nodup id node
  edges_nodup := h.edges_nodup
  has_start := by
    rw [Table.has_iff_mem_names]
    exact Table.mem_names_set.2 (Or.inr ((Table.has_iff_mem_names ..).1 h.has_start))
  isStart_iff := by
    intro n hn
    -- The new node is no start and lies elsewhere; the others are as they were.
    rcases Table.mem_of_mem_set hn with rfl | hold
    · simp [hkind, hid]
    · exact h.isStart_iff n hold
  ends := by simp [workflow, hedges]
  listed := by
    intro n hn
    rcases Table.mem_of_mem_set hn with rfl | hold
    · -- The new node lists nothing, and nothing leaves it yet.
      simp [horder, Workflow.idsFrom, workflow, hedges, Table.names]
    · exact h.listed n hold

/-- With one more edge between two nodes, all edges join nodes, whichever id the edge has. -/
theorem ends_addEdge {a : Assembly}
    (h : ∀ e ∈ a.edges, Table.has a.nodes e.2.source = true ∧ Table.has a.nodes e.2.target = true)
    (id : String) {e : Edge} (hsource : Table.has a.nodes e.source = true)
    (htarget : Table.has a.nodes e.target = true) :
    ∀ e' ∈ (a.addEdge id e).edges, Table.has (a.addEdge id e).nodes e'.2.source = true ∧
      Table.has (a.addEdge id e).nodes e'.2.target = true := by
  intro e' he'
  have hhas : ∀ k, Table.has (a.addEdge id e).nodes k = Table.has a.nodes k :=
    Table.has_congr (names_nodes_addEdge a id e)
  rw [hhas, hhas]
  -- The edge may take the place of another one, but it joins two nodes itself.
  rcases Table.mem_of_mem_set he' with rfl | hold
  · exact ⟨hsource, htarget⟩
  · exact h e' hold

/-- An edge with a new id between two nodes may be added. -/
theorem Intact.addEdge {a : Assembly} (h : a.Intact) {id : String}
    (hid : id ∉ Table.names a.edges) {e : Edge} (hsource : Table.has a.nodes e.source = true)
    (htarget : Table.has a.nodes e.target = true) : (a.addEdge id e).Intact := by
  have hedges : (a.addEdge id e).edges = a.edges ++ [(id, e)] := Table.set_of_notMem hid e
  have hnames := names_nodes_addEdge a id e
  -- Every node is one from before, with the new id at the end of its list if the edge leaves it.
  have hnodes : ∀ n ∈ (a.addEdge id e).nodes, ∃ n' ∈ a.nodes, n'.1 = n.1 ∧
      n.2.kind = n'.2.kind ∧
      n.2.edgeOrder = n'.2.edgeOrder ++ if e.source = n.1 then [id] else [] := by
    rintro ⟨k, n⟩ hn
    rw [nodes_addEdge] at hn
    obtain ⟨n', hn', rfl⟩ := Table.mem_modify.1 hn
    refine ⟨(k, n'), hn', rfl, ?_⟩
    by_cases hk : k = e.source
    · simp [hk]
    · simp [hk, Ne.symm hk]
  exact {
    nodes_nodup := by
      show (Table.names (a.addEdge id e).nodes).Nodup
      rw [hnames]
      exact h.nodes_nodup
    edges_nodup := by
      show (Table.names (a.addEdge id e).edges).Nodup
      rw [hedges, Table.names_append]
      exact List.concat_eq_append ▸ List.Nodup.concat hid h.edges_nodup
    has_start := (Table.has_congr hnames _).trans h.has_start
    isStart_iff := by
      intro n hn
      obtain ⟨n', hn', hname, hkind, -⟩ := hnodes n hn
      rw [hkind, ← hname]
      exact h.isStart_iff n' hn'
    ends := ends_addEdge h.ends id hsource htarget
    listed := by
      intro n hn
      obtain ⟨n', hn', hname, -, horder⟩ := hnodes n hn
      have hbefore : n'.2.edgeOrder = a.workflow.idsFrom n'.1 := h.listed n' hn'
      show n.2.edgeOrder = Table.names ((a.addEdge id e).edges.filter fun e => e.2.source = n.1)
      rw [horder, hbefore, hname, hedges, List.filter_append, Table.names_append]
      -- Only the source lists the new id, and only there the new edge is counted.
      by_cases hk : e.source = n.1 <;> simp [hk, Workflow.idsFrom, workflow, Table.names] }

/-- Holding the node of a compiled step keeps the workflow intact, before there is any edge. -/
theorem Intact.hold {a : Assembly} (h : a.Intact) (hedges : a.edges = []) {s : Step}
    {c : Compiled} (hc : s.compile.Gives c) : (a.hold s.id c).Intact := by
  unfold Assembly.hold
  split
  · exact h
  · rename_i node hnode
    split
    · exact h
    · rename_i hid
      obtain ⟨kind, hkind, hmade⟩ := s.hasFreshNode_of_node hc (by simp [hnode])
      obtain rfl : node = s.plainNode kind := Option.some.inj (hnode.symm.trans hmade)
      exact h.set hedges hid rfl hkind

/-- An edge with a made id between two nodes may be added, as long as ids are known. -/
theorem Intact.addMade {a : Assembly} (h : a.Intact) (hids : a.KnowsIds) {e : Edge}
    (hsource : Table.has a.nodes e.source = true)
    (htarget : Table.has a.nodes e.target = true) : (a.addMade e).Intact := by
  have hcounted : Assembly.Intact { a with made := a.made + 1 } := h
  exact hcounted.addEdge (hids.next_notMem e.source e.target) hsource htarget

theorem Intact.place {a : Assembly} (h : a.Intact) (hids : a.KnowsIds) (c : Connection) :
    (a.place c).Intact := by
  unfold Assembly.place
  split
  · exact h
  · rename_i hlost
    obtain ⟨hsource, htarget⟩ := lost?_eq_none.1 hlost
    exact h.addMade hids hsource htarget

/-- The first edge may have any id, and is added between the start and a node. -/
theorem Intact.enter {a : Assembly} (h : a.Intact) (hedges : a.edges = [])
    (entry : Option String) : (a.enter entry).Intact := by
  have hids : a.KnowsIds := by simp [KnowsIds, hedges, Table.names]
  rcases a.enter_cases entry with hsame | ⟨id, hid, hadded⟩
  · rwa [hsame]
  · rw [hadded, addGiven]
    -- The given id may be any, since no other edge has one yet.
    split
    · exact h.addMade hids h.has_start hid
    · exact h.addEdge (by simp [hedges, Table.names]) h.has_start hid

end Assembly

/-! ## §4 Compiled workflows -/

namespace Flow

variable {f : Flow}

/-- The steps and their results stand side by side. -/
theorem CompilesTo.gives_of_mem {compiled : List Compiled} (h : f.CompilesTo compiled)
    {q : Step × Compiled} (hq : q ∈ f.steps.zip compiled) : q.1.compile.Gives q.2 :=
  (List.forall₂_iff_zip.1 h).2 hq

namespace Passes

variable (p : Passes f) (s : Settings)

theorem intact_held : (p.held s).Intact := by
  -- While nodes are held there is no edge yet, so integrity is kept together with that.
  have hstep : ∀ a : Assembly, ∀ q ∈ f.steps.zip p.compiled, a.Intact ∧ a.edges = [] →
      (a.hold q.1.id q.2).Intact ∧ (a.hold q.1.id q.2).edges = [] := by
    rintro a q hq ⟨hintact, hedges⟩
    refine ⟨hintact.hold hedges (p.compiles.gives_of_mem hq), ?_⟩
    rw [Assembly.hold_frame]
    exact hedges
  have hbegin : (Assembly.ofSettings s).Intact ∧ (Assembly.ofSettings s).edges = [] :=
    ⟨Assembly.intact_begin .., rfl⟩
  exact (Assembly.holdAll_invariant hstep hbegin).1

/-- With an edge id for the start that is never made, ids are known from the first edge on. -/
theorem knowsIds_entered (hs : ¬ Assembly.LooksGenerated s.startEdgeId) :
    (p.entered s).KnowsIds := by
  have hheld : (p.held s).KnowsIds := by simp [Assembly.KnowsIds, Table.names]
  unfold entered
  rcases (p.held s).enter_cases p.entry.stepId with hsame | ⟨id, -, hadded⟩
  · rwa [hsame]
  · rw [hadded, Assembly.addGiven]
    split
    · exact hheld.addMade _
    · -- The only id in use is the given one.
      intro id hid
      simp [Assembly.addEdge, Table.set, Table.names] at hid
      exact Or.inl (hid ▸ hs)

/-- The workflow of a result is intact. -/
theorem intact_result (hs : ¬ Assembly.LooksGenerated s.startEdgeId) :
    (p.result s).workflow.Intact s.startNodeId := by
  -- An edge is new only as long as ids are known, so the run keeps both.
  have hstep : ∀ (a : Assembly) (c : Connection),
      (a.Intact ∧ a.KnowsIds) ∧ a.startNodeId = s.startNodeId →
      ((a.place c).Intact ∧ (a.place c).KnowsIds) ∧ (a.place c).startNodeId = s.startNodeId := by
    rintro a c ⟨⟨hintact, hids⟩, hstart⟩
    exact ⟨⟨hintact.place hids c, hids.place c⟩, (Assembly.place_startNodeId a c).trans hstart⟩
  have hentered : ((p.entered s).Intact ∧ (p.entered s).KnowsIds) ∧
      (p.entered s).startNodeId = s.startNodeId :=
    ⟨⟨(p.intact_held s).enter (p.held_edges s) _, p.knowsIds_entered s hs⟩,
      p.entered_startNodeId s⟩
  obtain ⟨⟨hintact, -⟩, hstart⟩ := Assembly.placeAll_invariant hstep hentered p.plan
  exact hstart ▸ hintact

end Passes

/-- **Every compiled workflow is intact.** It has one start node, under the id of the settings;
its edges join its nodes; and every node lists the edges that leave it, in the order in which
they were added, so that each edge is listed once. -/
theorem compiled_intact (f : Flow) (s : Settings)
    (hs : ¬ Assembly.LooksGenerated s.startEdgeId) {c : Compilation} (h : f.Returns s c) :
    c.workflow.Intact s.startNodeId ∧
      c.workflow.startIds = [s.startNodeId] ∧
      (c.workflow.nodes.flatMap fun n => n.2.edgeOrder).Perm (Table.names c.workflow.edges) ∧
      ∀ n ∈ c.workflow.nodes, ∀ id ∈ n.2.edgeOrder,
        ∃ e, Table.get? c.workflow.edges id = some e ∧ e.source = n.1 := by
  obtain ⟨p, hp⟩ := h.passes
  have hintact : c.workflow.Intact s.startNodeId := by
    rw [hp]
    exact p.intact_result s hs
  exact ⟨hintact, hintact.startIds_eq, hintact.perm_edgeOrders,
    fun n hn id hid => hintact.leaves hn hid⟩

/-- A flow with every irregularity: a step that is declared twice, one that is named like the
start node, two branches that lead to each other, and links to and from nowhere. -/
def tangle : Flow where
  steps := [
    { id := "t", type := some "trigger" },
    { id := "a", type := some "message" },
    { id := "a", type := some "question" },
    { id := Workflow.defaultStartId, type := some "message" },
    { id := "c", type := some "condition" },
    { id := "d", type := some "condition" },
    { id := "b", type := some "end" }]
  links := [
    { id := "e1", source := "t", target := "a" },
    { id := "e2", source := "a", target := "c" },
    { id := "e3", source := "c", target := "d" },
    { id := "e4", source := "d", target := "c" },
    { id := "e5", source := "d", target := "b" },
    { id := "e6", source := "c", target := "nowhere" },
    { id := "e7", source := "nowhere", target := "b" },
    { id := "e8", source := "a", target := Workflow.defaultStartId }]

/-- The tangle is compiled, and its workflow is intact. -/
theorem compiled_intact_tangle :
    ¬ Assembly.LooksGenerated Settings.defaultStartEdgeId ∧
      ∃ c, tangle.Returns {} c ∧ c.workflow.Intact Workflow.defaultStartId := by
  have hid : ¬ Assembly.LooksGenerated Settings.defaultStartEdgeId := by decide +kernel
  obtain ⟨c, hc⟩ := gives_of_succeeds (a := tangle.compile {}) (by decide +kernel)
  have hreturns : tangle.Returns {} c := .plain hc
  exact ⟨hid, c, hreturns, (compiled_intact tangle {} hid hreturns).1⟩

end Flow

end CallFlow
