import CallFlow.Proofs.Validity

/-!
# Calls to an Assembly

An assembly may be called in any order: a node may be added after edges have been made at the one
that it replaces, an edge id may be given twice, the start may be connected again, and connections
may be refused. Whatever happens, the start node stays in its place, edges join nodes, and nodes
list edges that exist. A call that fails leaves an assembly as well as one that goes through, so
what is shown of runs is shown of runs with failures in them.

All that a call can do to an assembly is collected in `Change`. A change keeps an assembly in order,
and so does, call by call, a run of any length.

## Sections

1. Calls
2. What a call changes
3. Assemblies in order
4. Runs of calls
-/

namespace CallFlow.Assembly

open Attempt CallFlow.Flow

/-! ## §1 Calls -/

/-- A call to an assembly. A node that is added lists no edges yet. -/
inductive Call where
  | addNode (id : String) (position : Position) (kind : NodeKind)
  | connect (source target : String) (condition : Condition) (id linkId : Option String)
  | connectStart (entry : Option String)
  | nextEdgeId (source target : String)

/-- Carries out a call. -/
def perform (a : Assembly) : Call → Called (Option String)
  | .addNode id position kind =>
    let (a, added) := a.callAddNode id { position, kind }
    (a, do added; return none)
  | .connect source target condition id linkId => a.callConnect source target condition id linkId
  | .connectStart entry => a.callConnectStart entry
  | .nextEdgeId source target =>
    let (id, a) := a.nextEdgeId source target
    (a, return some id)

/-- The assembly after a call, be it one that fails. -/
def after (a : Assembly) (call : Call) : Assembly := (a.perform call).1

/-- The assembly after some calls, in order. -/
def afterCalls (a : Assembly) (calls : List Call) : Assembly := calls.foldl after a

/-! ## §2 What a call changes -/

/-- All that a call can do to an assembly. -/
inductive Change (a : Assembly) : Assembly → Prop where
  | nothing : Change a a
  /-- A node is added, or takes the place of an earlier one that is not the start. -/
  | node {id : String} (hid : id ≠ a.startNodeId) (position : Position) (kind : NodeKind) :
      Change a { a with nodes := Table.set a.nodes id { position, kind } }
  /-- Two nodes are joined by an edge with a given id or a made one. -/
  | edge (id : String) {e : Edge} (hsource : Table.has a.nodes e.source = true)
      (htarget : Table.has a.nodes e.target = true) : Change a (a.addGiven id e)
  /-- A connection is put on record as dropped, which only a lenient assembly does. -/
  | drop (hlenient : a.strict = false) (d : DroppedLink) :
      Change a { a with dropped := a.dropped ++ [d] }
  /-- An edge id is made and not used. -/
  | count : Change a { a with made := a.made + 1 }

/-- **What a call changes**, in an assembly whose start node is there. -/
theorem change_after {a : Assembly} (hstart : Table.has a.nodes a.startNodeId = true)
    (call : Call) : a.Change (a.after call) := by
  cases call with
  | addNode id position kind =>
    have hafter : a.after (.addNode id position kind) = _ :=
      callAddNode_fst a id { position, kind }
    rw [hafter]
    split
    · exact .nothing
    · rename_i hid
      exact .node hid position kind
  | connect source target condition id linkId =>
    show a.Change (a.callConnect source target condition id linkId).1
    cases hmissing : a.missingEnd? source target with
    | some reason =>
      cases hstrict : a.strict with
      | true =>
        rw [(callConnect_of_strict hmissing hstrict condition id linkId).1]
        exact .nothing
      | false =>
        rw [(callConnect_of_lenient hmissing hstrict condition id linkId).1]
        exact .drop hstrict _
    | none =>
      obtain ⟨made, hmade⟩ := callConnect_of_ends hmissing condition id linkId
      obtain ⟨hsource, htarget⟩ := missingEnd?_eq_none.1 hmissing
      rw [hmade]
      exact .edge _ hsource htarget
  | connectStart entry =>
    have hafter : a.after (.connectStart entry) = a.enter entry :=
      (callConnectStart_of_start hstart entry).1
    rw [hafter]
    rcases a.enter_cases entry with hsame | ⟨id, hid, hadded⟩
    · rw [hsame]
      exact .nothing
    · rw [hadded]
      exact .edge _ hstart hid
  | nextEdgeId source target => exact .count

/-- No call changes what an assembly has been told in the beginning. -/
theorem Change.frame {a b : Assembly} (h : a.Change b) :
    b.startNodeId = a.startNodeId ∧ b.startEdgeId = a.startEdgeId ∧ b.strict = a.strict := by
  cases h with
  | edge id => rw [addGiven_frame]; exact ⟨rfl, rfl, rfl⟩
  | _ => exact ⟨rfl, rfl, rfl⟩

/-! ## §3 Assemblies in order -/

/-- What holds of an assembly at any time. -/
structure InOrder (a : Assembly) : Prop where
  distinct : (Table.names a.nodes).Nodup
  /-- The injected start node is in its place. -/
  start : ∃ edgeOrder, Table.get? a.nodes a.startNodeId =
    some { position := { x := 0, y := 0 }, edgeOrder, kind := .start }
  joined : ∀ e ∈ a.edges,
    Table.has a.nodes e.2.source = true ∧ Table.has a.nodes e.2.target = true
  listed : ∀ n ∈ a.nodes, ∀ id ∈ n.2.edgeOrder, Table.has a.edges id = true
  lossless : a.strict = true → a.dropped = []

theorem inOrder_begin (startNodeId startEdgeId : String) (strict : Bool) :
    (begin startNodeId startEdgeId strict).InOrder where
  distinct := List.nodup_singleton startNodeId
  start := ⟨[], by simp [begin, startNode, Table.get?]⟩
  joined := nofun
  listed := by simp [begin, startNode]
  lossless := fun _ => rfl

theorem InOrder.has_start {a : Assembly} (h : a.InOrder) :
    Table.has a.nodes a.startNodeId = true := by
  obtain ⟨edgeOrder, hstart⟩ := h.start
  simp [Table.has, hstart]

/-- Another node than the start may be added at any time. If it takes the place of one that lists
edges, these edges are listed no more, but they still join nodes. -/
theorem InOrder.setNode {a : Assembly} (h : a.InOrder) {id : String} (hid : id ≠ a.startNodeId)
    (position : Position) (kind : NodeKind) :
    InOrder { a with nodes := Table.set a.nodes id { position, kind } } where
  distinct := Table.nodup_names_set h.distinct id _
  start := by
    obtain ⟨edgeOrder, hstart⟩ := h.start
    exact ⟨edgeOrder, (Table.get?_set_of_ne _ hid _).trans hstart⟩
  joined := by
    have hkept : ∀ k, Table.has a.nodes k = true →
        Table.has (Table.set a.nodes id { position, kind }) k = true := by
      intro k hk
      rw [Table.has_iff_mem_names] at hk ⊢
      exact Table.mem_names_set.2 (Or.inr hk)
    intro e he
    obtain ⟨hsource, htarget⟩ := h.joined e he
    exact ⟨hkept _ hsource, hkept _ htarget⟩
  listed := by
    intro n hn edgeId hlisted
    rcases Table.mem_of_mem_set hn with rfl | hold
    · -- The new node lists nothing.
      cases hlisted
    · exact h.listed n hold edgeId hlisted
  lossless := h.lossless

/-- An edge between two nodes may be added under any id. If it takes the place of another edge, the
id is still one of an edge. -/
theorem InOrder.addEdge {a : Assembly} (h : a.InOrder) (id : String) {e : Edge}
    (hsource : Table.has a.nodes e.source = true) (htarget : Table.has a.nodes e.target = true) :
    (a.addEdge id e).InOrder where
  distinct := by
    rw [names_nodes_addEdge]
    exact h.distinct
  start := by
    obtain ⟨edgeOrder, hstart⟩ := h.start
    have hstartNode : (a.addEdge id e).startNodeId = a.startNodeId := rfl
    rw [nodes_addEdge, hstartNode, Table.get?_modify, hstart]
    -- The edge may leave the start, and then its id is listed there.
    split
    · exact ⟨edgeOrder ++ [id], rfl⟩
    · exact ⟨edgeOrder, rfl⟩
  joined := ends_addEdge h.joined id hsource htarget
  listed := by
    have hkept : ∀ k, k = id ∨ Table.has a.edges k = true →
        Table.has (a.addEdge id e).edges k = true := by
      intro k hk
      rw [Table.has_iff_mem_names] at hk ⊢
      exact Table.mem_names_set.2 hk
    rintro ⟨k, n⟩ hn edgeId hlisted
    rw [nodes_addEdge] at hn
    obtain ⟨n', hn', rfl⟩ := Table.mem_modify.1 hn
    split at hlisted
    · rcases List.mem_append.1 hlisted with hbefore | hnew
      · exact hkept edgeId (Or.inr (h.listed (k, n') hn' edgeId hbefore))
      · exact hkept edgeId (Or.inl (List.mem_singleton.1 hnew))
    · exact hkept edgeId (Or.inr (h.listed (k, n') hn' edgeId hlisted))
  lossless := h.lossless

/-- **A change keeps an assembly in order.** -/
theorem InOrder.change {a b : Assembly} (h : a.InOrder) (hchange : a.Change b) : b.InOrder := by
  cases hchange with
  | nothing => exact h
  | node hid position kind => exact h.setNode hid position kind
  | edge id hsource htarget =>
    unfold addGiven
    split
    · -- The id is made, which shows in the counter only.
      have hcounted : InOrder { a with made := a.made + 1 } := { h with }
      exact hcounted.addEdge _ hsource htarget
    · exact h.addEdge id hsource htarget
  | drop hlenient d =>
    refine { h with lossless := fun hstrict => ?_ }
    rw [hlenient] at hstrict
    cases hstrict
  | count => exact { h with }

/-! ## §4 Runs of calls -/

/-- A run of calls leaves an assembly in order, with what it has been told in the beginning. -/
theorem InOrder.afterCalls {a : Assembly} (h : a.InOrder) (calls : List Call) :
    (a.afterCalls calls).InOrder ∧
      (a.afterCalls calls).startNodeId = a.startNodeId ∧
      (a.afterCalls calls).startEdgeId = a.startEdgeId ∧
      (a.afterCalls calls).strict = a.strict := by
  induction calls generalizing a with
  | nil => exact ⟨h, rfl, rfl, rfl⟩
  | cons call rest ih =>
    have hchange := change_after h.has_start call
    obtain ⟨hstartNode, hstartEdge, hstrict⟩ := hchange.frame
    obtain ⟨horder, hrest⟩ := ih (h.change hchange)
    exact ⟨horder, hstartNode ▸ hstartEdge ▸ hstrict ▸ hrest⟩

/-- A connection with a missing end lacks its source, or else its target. -/
theorem missingEnd?_of_missing {a : Assembly} {source target : String}
    (h : Table.has a.nodes source = false ∨ Table.has a.nodes target = false) :
    a.missingEnd? source target =
      some (if Table.has a.nodes source then .targetMissing else .sourceMissing) := by
  unfold missingEnd?
  cases hsource : Table.has a.nodes source with
  | false => rfl
  | true =>
    have htarget := h.resolve_left (by simp [hsource])
    simp [htarget]

/-- **An assembly stays in order**, whatever calls are made to it, and however many of them fail. A
connection between ids of which one is no node leaves nodes, edges and the counter of edge ids as
they were: a strict assembly refuses it and is not changed at all, so nothing is ever dropped there,
and a lenient one puts one record of it behind the others. -/
theorem assembly_stays_in_order (startNodeId startEdgeId : String) (strict : Bool)
    (calls : List Call) :
    let a := (begin startNodeId startEdgeId strict).afterCalls calls
    a.InOrder ∧ a.startNodeId = startNodeId ∧ a.startEdgeId = startEdgeId ∧ a.strict = strict ∧
    ∀ source target condition id linkId,
      Table.has a.nodes source = false ∨ Table.has a.nodes target = false →
      let call : Call := .connect source target condition id linkId
      let reason : DropReason :=
        if Table.has a.nodes source then .targetMissing else .sourceMissing
      let recorded : Assembly :=
        { a with dropped := a.dropped ++ [{ linkId, source, target, reason }] }
      (strict = true →
        (a.perform call).2.Fails (.danglingLink linkId source target reason) ∧
          a.after call = a) ∧
      (strict = false → (a.perform call).2.Gives none ∧ a.after call = recorded) := by
  intro a
  obtain ⟨horder, hstartNode, hstartEdge, hstrict⟩ :=
    (inOrder_begin startNodeId startEdgeId strict).afterCalls calls
  refine ⟨horder, hstartNode, hstartEdge, hstrict, ?_⟩
  intro source target condition id linkId hmissing call reason recorded
  have hreason := missingEnd?_of_missing hmissing
  constructor
  · intro hs
    exact (callConnect_of_strict hreason (hstrict.trans hs) condition id linkId).symm
  · intro hs
    exact (callConnect_of_lenient hreason (hstrict.trans hs) condition id linkId).symm

/-- Calls in disorder: the start is connected to a node that is not there yet, an edge takes the id
of the edge from the start, a node that lists this edge is replaced, another one would be put in the
place of the start, and a connection leads nowhere. -/
def disorder : List Call := [
  .connectStart (some "a"),
  .addNode "a" {} (.script { label := "a", prompt := "" }),
  .addNode "b" {} .finish,
  .connectStart (some "a"),
  .connect "a" "b" .unconditional (some Settings.defaultStartEdgeId) (some "e1"),
  .addNode "a" {} .finish,
  .addNode Workflow.defaultStartId {} .finish,
  .connect "a" "nowhere" .unconditional none (some "e2"),
  .nextEdgeId "a" "b"]

/-- An assembly after calls in disorder. -/
def disordered (strict : Bool) : Assembly :=
  (begin Workflow.defaultStartId Settings.defaultStartEdgeId strict).afterCalls disorder

/-- Disorder does no harm, and after it a strict assembly refuses what leads nowhere, while a
lenient one records it. -/
theorem assembly_stays_in_order_disordered :
    (disordered true).InOrder ∧
      Table.has (disordered true).nodes "nowhere" = false ∧
      ((disordered true).perform (.connect "b" "nowhere" .unconditional none (some "e3"))).2.Fails
        (.danglingLink (some "e3") "b" "nowhere" .targetMissing) ∧
      Table.has (disordered false).nodes "nowhere" = false ∧
      ((disordered false).after (.connect "b" "nowhere" .unconditional none (some "e3"))).dropped =
        [⟨some "e2", "a", "nowhere", .targetMissing⟩,
          ⟨some "e3", "b", "nowhere", .targetMissing⟩] := by
  have hstrict : Table.has (disordered true).nodes "nowhere" = false := by decide +kernel
  have hsource : Table.has (disordered true).nodes "b" = true := by decide +kernel
  have hlenient : Table.has (disordered false).nodes "nowhere" = false := by decide +kernel
  have hsource' : Table.has (disordered false).nodes "b" = true := by decide +kernel
  have hdropped : (disordered false).dropped = [⟨some "e2", "a", "nowhere", .targetMissing⟩] := by
    decide +kernel
  obtain ⟨horder, -, -, -, hrefused⟩ := assembly_stays_in_order Workflow.defaultStartId
    Settings.defaultStartEdgeId true disorder
  obtain ⟨-, -, -, -, hrecorded⟩ := assembly_stays_in_order Workflow.defaultStartId
    Settings.defaultStartEdgeId false disorder
  have hfails : ((disordered true).perform
      (.connect "b" "nowhere" .unconditional none (some "e3"))).2.Fails
        (.danglingLink (some "e3") "b" "nowhere"
          (if Table.has (disordered true).nodes "b" then .targetMissing else .sourceMissing)) :=
    ((hrefused "b" "nowhere" .unconditional none (some "e3") (Or.inr hstrict)).1 rfl).1
  have hafter : ((disordered false).after
      (.connect "b" "nowhere" .unconditional none (some "e3"))).dropped =
        (disordered false).dropped ++ [⟨some "e3", "b", "nowhere",
          if Table.has (disordered false).nodes "b" then .targetMissing else .sourceMissing⟩] :=
    congrArg Assembly.dropped
      ((hrecorded "b" "nowhere" .unconditional none (some "e3") (Or.inr hlenient)).2 rfl).2
  rw [if_pos hsource] at hfails
  rw [if_pos hsource', hdropped] at hafter
  exact ⟨horder, hstrict, hfails, hlenient, hafter⟩

end CallFlow.Assembly
