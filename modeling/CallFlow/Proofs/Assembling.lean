import CallFlow.Compiler
import CallFlow.Proofs.EdgeIds
import CallFlow.Proofs.Outcome
import CallFlow.Proofs.Tables

/-!
# What the Steps of an Assembly Do

Every step of an assembly is an attempt, but its journal and its failures are easily told
apart from the assembly that it leaves. This module names that assembly for each step, as a
plain function, and shows that the step gives nothing else. What a step leaves when it fails is
said beside it, although whoever compiles a flow gives up with the failure:

- `hold` keeps the node of a compiled step,
- `enter` connects the start node to the entry,
- `place` makes a connection, or drops it.

Only `place` can fail, and only in a strict assembly: `outcome_connectOne` says when and how.

## Sections

1. Holding nodes
2. Making edges
3. Entering the flow
4. Placing one connection
5. Placing many connections
-/

namespace CallFlow.Assembly

open Attempt CallFlow.Flow

/-! ## §1 Holding nodes -/

/-- The assembly after the node of a compiled step is added under its id, if it has one. -/
def hold (a : Assembly) (id : String) (c : Compiled) : Assembly :=
  match c.node with
  | none => a
  | some node =>
    if id = a.startNodeId then a else { a with nodes := Table.set a.nodes id node }

/-- Holding a node touches nothing but the nodes. -/
theorem hold_frame (a : Assembly) (id : String) (c : Compiled) :
    a.hold id c = { a with nodes := (a.hold id c).nodes } := by
  unfold hold
  split
  · rfl
  · split <;> rfl

/-- Holding a node takes no node away. -/
theorem has_hold {a : Assembly} {name : String} (h : Table.has a.nodes name = true)
    (id : String) (c : Compiled) : Table.has (a.hold id c).nodes name = true := by
  unfold hold
  split
  · exact h
  · split
    · exact h
    · rw [Table.has_iff_mem_names] at h ⊢
      exact Table.mem_names_set.2 (Or.inr h)

/-- A call that is committed gives its answer and the assembly that it leaves. -/
theorem gives_committed {α : Type} {called : Called α} {x : α × Assembly} :
    (committed called).Gives x ↔ called.2.Gives x.1 ∧ x.2 = called.1 := by
  obtain ⟨answer, b⟩ := x
  simp only [committed, gives_bind, gives_pure, Prod.mk.injEq]
  constructor
  · rintro ⟨y, hy, rfl, rfl⟩
    exact ⟨hy, rfl⟩
  · rintro ⟨hanswer, rfl⟩
    exact ⟨answer, hanswer, rfl, rfl⟩

/-- Adding a node never fails. -/
theorem gives_callAddNode (a : Assembly) (id : String) (node : Node) :
    (a.callAddNode id node).2.Gives () := by
  unfold callAddNode
  split
  · rfl
  · -- Whether an earlier node is replaced shows in the journal only.
    dsimp only
    split <;> rfl

theorem callAddNode_fst (a : Assembly) (id : String) (node : Node) :
    (a.callAddNode id node).1 =
      if id = a.startNodeId then a else { a with nodes := Table.set a.nodes id node } := by
  unfold callAddNode
  split <;> rfl

theorem gives_addNode {a b : Assembly} {id : String} {node : Node} :
    (a.addNode id node).Gives b ↔
      b = if id = a.startNodeId then a else { a with nodes := Table.set a.nodes id node } := by
  simp only [addNode, gives_map, gives_committed, callAddNode_fst]
  constructor
  · rintro ⟨x, ⟨-, hx⟩, rfl⟩
    exact hx
  · rintro rfl
    exact ⟨((), _), ⟨gives_callAddNode a id node, rfl⟩, rfl⟩

/-- Compiling a step adds its facts and holds its node. -/
theorem gives_compileStep {state state' : Facts × Assembly} {s : Step} :
    (compileStep state s).Gives state' ↔
      ∃ c, s.compile.Gives c ∧ state' = (state.1.absorb c, state.2.hold s.id c) := by
  simp only [compileStep, gives_bind]
  refine exists_congr fun c => and_congr_right fun _ => ?_
  cases hnode : c.node with
  | none => simp only [gives_pure, hold, hnode]
  | some node => simp only [gives_bind, gives_addNode, gives_pure, exists_eq_left, hold, hnode]

/-! ## §2 Making edges -/

theorem nodes_addEdge (a : Assembly) (id : String) (e : Edge) :
    (a.addEdge id e).nodes =
      Table.modify a.nodes e.source fun n => { n with edgeOrder := n.edgeOrder ++ [id] } := rfl

/-- An edge changes no name of a node. -/
@[simp] theorem names_nodes_addEdge (a : Assembly) (id : String) (e : Edge) :
    Table.names (a.addEdge id e).nodes = Table.names a.nodes := by
  rw [nodes_addEdge, Table.names_modify]

/-- The assembly after an edge with a made id is added. -/
def addMade (a : Assembly) (e : Edge) : Assembly :=
  { a with made := a.made + 1 }.addEdge (edgeId (a.made + 1) e.source e.target) e

/-- The assembly after an edge is added with the given id, or with a made one if the given id is
empty. -/
def addGiven (a : Assembly) (id : String) (e : Edge) : Assembly :=
  if id.isEmpty then a.addMade e else a.addEdge id e

/-- Between two nodes a connection is always made. -/
theorem callConnect_of_ends {a : Assembly} {source target : String}
    (h : a.missingEnd? source target = none) (condition : Condition)
    (id linkId : Option String) :
    ∃ made, a.callConnect source target condition id linkId =
      (a.addGiven (id.getD "") { source, target, condition }, pure (some made)) := by
  simp only [callConnect, h, addGiven]
  -- The id is made or given.
  split
  · exact ⟨_, rfl⟩
  · exact ⟨_, rfl⟩

theorem gives_connect_of_ends {a : Assembly} {source target : String}
    (h : a.missingEnd? source target = none) (condition : Condition)
    (id linkId : Option String) :
    ∃ made, (a.connect source target condition id linkId).Gives
      (some made, a.addGiven (id.getD "") { source, target, condition }) := by
  obtain ⟨made, hmade⟩ := callConnect_of_ends h condition id linkId
  exact ⟨made, gives_committed.2 ⟨by rw [hmade]; exact gives_pure.2 rfl, by rw [hmade]⟩⟩

/-- A connection with a missing end is refused by a strict assembly, which stays as it is. -/
theorem callConnect_of_strict {a : Assembly} {source target : String} {reason : DropReason}
    (h : a.missingEnd? source target = some reason) (hstrict : a.strict = true)
    (condition : Condition) (id linkId : Option String) :
    (a.callConnect source target condition id linkId).1 = a ∧
      (a.callConnect source target condition id linkId).2.Fails
        (.danglingLink linkId source target reason) := by
  simp only [callConnect, h, drop, hstrict, if_true, true_and]
  exact fails_bind.2 (Or.inl (fails_fail.2 rfl))

/-- A connection with a missing end is put on record by a lenient assembly. -/
theorem callConnect_of_lenient {a : Assembly} {source target : String} {reason : DropReason}
    (h : a.missingEnd? source target = some reason) (hlenient : a.strict = false)
    (condition : Condition) (id linkId : Option String) :
    (a.callConnect source target condition id linkId).1 =
        { a with dropped := a.dropped ++ [⟨linkId, source, target, reason⟩] } ∧
      (a.callConnect source target condition id linkId).2.Gives none := by
  simp only [callConnect, h, drop, hlenient, Bool.false_eq_true, if_false, true_and]
  exact gives_debug_bind.2 (gives_pure.2 rfl)

theorem outcome_connect_of_missing {a : Assembly} {source target : String} {reason : DropReason}
    (h : a.missingEnd? source target = some reason) (condition : Condition)
    (id linkId : Option String) :
    (a.connect source target condition id linkId).outcome =
      if a.strict then .error (.danglingLink linkId source target reason)
      else .ok (none, { a with dropped := a.dropped ++ [⟨linkId, source, target, reason⟩] }) := by
  split
  · rename_i hstrict
    obtain ⟨-, hfails⟩ := callConnect_of_strict h hstrict condition id linkId
    exact fails_bind.2 (Or.inl hfails)
  · rename_i hlenient
    obtain ⟨hleft, hgives⟩ :=
      callConnect_of_lenient h (Bool.not_eq_true _ ▸ hlenient) condition id linkId
    exact gives_committed.2 ⟨hgives, hleft.symm⟩

/-! ## §3 Entering the flow -/

/-- The assembly after the start node is connected to the entry, if that is a node. -/
def enter (a : Assembly) (entry : Option String) : Assembly :=
  match entry with
  | none => a
  | some id =>
    if Table.has a.nodes id then
      a.addGiven a.startEdgeId
        { source := a.startNodeId, target := id, condition := .unconditional }
    else a

/-- **All that entering can do**: nothing, or to connect the start with a node. -/
theorem enter_cases (a : Assembly) (entry : Option String) :
    a.enter entry = a ∨ ∃ id, Table.has a.nodes id = true ∧
      a.enter entry = a.addGiven a.startEdgeId
        { source := a.startNodeId, target := id, condition := .unconditional } := by
  unfold enter
  cases entry with
  | none => exact Or.inl rfl
  | some id =>
    cases hid : Table.has a.nodes id with
    | false => exact Or.inl (by simp [hid])
    | true => exact Or.inr ⟨id, hid, by simp [hid]⟩

theorem addGiven_frame (a : Assembly) (id : String) (e : Edge) :
    a.addGiven id e = { a with
      nodes := (a.addGiven id e).nodes
      edges := (a.addGiven id e).edges
      made := (a.addGiven id e).made } := by
  unfold addGiven
  split <;> rfl

@[simp] theorem names_nodes_addGiven (a : Assembly) (id : String) (e : Edge) :
    Table.names (a.addGiven id e).nodes = Table.names a.nodes := by
  unfold addGiven addMade
  split <;> rw [names_nodes_addEdge]

/-- Entering touches nothing but nodes, edges and the counter of edge ids. -/
theorem enter_frame (a : Assembly) (entry : Option String) :
    a.enter entry = { a with
      nodes := (a.enter entry).nodes
      edges := (a.enter entry).edges
      made := (a.enter entry).made } := by
  rcases a.enter_cases entry with h | ⟨id, -, h⟩
  · rw [h]
  · rw [h]
    exact addGiven_frame ..

/-- Entering changes no name of a node. -/
@[simp] theorem names_nodes_enter (a : Assembly) (entry : Option String) :
    Table.names (a.enter entry).nodes = Table.names a.nodes := by
  rcases a.enter_cases entry with h | ⟨id, -, h⟩
  · rw [h]
  · rw [h, names_nodes_addGiven]

theorem missingEnd?_eq_none {a : Assembly} {source target : String} :
    a.missingEnd? source target = none ↔
      Table.has a.nodes source = true ∧ Table.has a.nodes target = true := by
  unfold missingEnd?
  cases Table.has a.nodes source <;> cases Table.has a.nodes target <;> simp

/-- Entering never fails, since the start node is there. -/
theorem callConnectStart_of_start {a : Assembly} (hstart : Table.has a.nodes a.startNodeId = true)
    (entry : Option String) :
    (a.callConnectStart entry).1 = a.enter entry ∧
      ∃ made, (a.callConnectStart entry).2.Gives made := by
  cases entry with
  | none => exact ⟨rfl, none, gives_pure.2 rfl⟩
  | some id =>
    simp only [callConnectStart, enter]
    split
    · -- Both ends are nodes, so even a strict assembly makes the connection.
      rename_i hid
      obtain ⟨made, hmade⟩ := callConnect_of_ends (missingEnd?_eq_none.2 ⟨hstart, hid⟩)
        .unconditional (some a.startEdgeId) none
      simp only [hmade]
      refine ⟨rfl, some made, gives_bind.2 ⟨_, gives_pure.2 rfl, ?_⟩⟩
      rw [gives_debug_bind, gives_pure]
    · exact ⟨rfl, none, gives_pure.2 rfl⟩

theorem gives_connectStart {a : Assembly} (hstart : Table.has a.nodes a.startNodeId = true)
    (entry : Option String) : ∃ made, (a.connectStart entry).Gives (made, a.enter entry) := by
  obtain ⟨hleft, made, hmade⟩ := callConnectStart_of_start hstart entry
  exact ⟨made, gives_committed.2 ⟨hmade, hleft.symm⟩⟩

/-! ## §4 Placing one connection -/

/-- What is recorded when a connection is dropped; `none` if it can be made. -/
def lost? (a : Assembly) (c : Connection) : Option DroppedLink :=
  (a.missingEnd? c.source c.target).map fun reason =>
    { linkId := some c.linkId, source := c.source, target := c.target, reason }

/-- The assembly after a connection is made or dropped. -/
def place (a : Assembly) (c : Connection) : Assembly :=
  match a.lost? c with
  | some d => { a with dropped := a.dropped ++ [d] }
  | none => a.addMade { source := c.source, target := c.target, condition := c.condition }

/-- A connection that would be dropped is a failure when the assembly is strict; every other
one is placed. -/
theorem outcome_connectOne (a : Assembly) (c : Connection) :
    (connectOne a c).outcome =
      match a.lost? c with
      | some d =>
        if a.strict then .error (.danglingLink d.linkId d.source d.target d.reason)
        else .ok (a.place c)
      | none => .ok (a.place c) := by
  unfold connectOne place lost?
  rw [outcome_bind]
  -- Strictness is asked for only if an end is missing.
  cases h : a.missingEnd? c.source c.target with
  | some reason =>
    rw [outcome_connect_of_missing h]
    dsimp only [Option.map_some]
    split <;> rfl
  | none =>
    obtain ⟨made, hmade⟩ := gives_connect_of_ends h c.condition none (some c.linkId)
    rw [hmade]
    rfl

/-- Only a strict assembly refuses a connection, and only one that is lost. -/
theorem lost_of_fails_connectOne {a : Assembly} {c : Connection} {e : Failure}
    (h : (connectOne a c).Fails e) :
    a.strict = true ∧
      ∃ d, a.lost? c = some d ∧ e = .danglingLink d.linkId d.source d.target d.reason := by
  unfold Fails at h
  rw [outcome_connectOne] at h
  split at h
  · rename_i d hd
    split at h
    · rename_i hstrict
      exact ⟨hstrict, d, hd, (Except.error.inj h).symm⟩
    · cases h
  · cases h

/-- Whatever the assembly, a connection that is let through is placed. -/
theorem eq_place_of_gives {a b : Assembly} {c : Connection} (h : (connectOne a c).Gives b) :
    b = a.place c := by
  unfold Gives at h
  rw [outcome_connectOne] at h
  split at h
  · split at h
    · cases h
    · exact (Except.ok.inj h).symm
  · exact (Except.ok.inj h).symm

/-- A connection is made just in case both its ends are nodes. -/
theorem lost?_eq_none {a : Assembly} {c : Connection} :
    a.lost? c = none ↔ Table.has a.nodes c.source = true ∧ Table.has a.nodes c.target = true := by
  rw [lost?, Option.map_eq_none_iff, missingEnd?_eq_none]

@[simp] theorem place_strict (a : Assembly) (c : Connection) : (a.place c).strict = a.strict := by
  unfold place
  split <;> rfl

@[simp] theorem place_startNodeId (a : Assembly) (c : Connection) :
    (a.place c).startNodeId = a.startNodeId := by
  unfold place
  split <;> rfl

/-- Placing a connection changes no name of a node. -/
@[simp] theorem names_nodes_place (a : Assembly) (c : Connection) :
    Table.names (a.place c).nodes = Table.names a.nodes := by
  unfold place
  split
  · rfl
  · simp [addMade]

/-- What is lost depends on the names of the nodes alone. -/
theorem lost?_congr {a b : Assembly} (h : Table.names a.nodes = Table.names b.nodes) :
    a.lost? = b.lost? := by
  funext c
  simp only [lost?, missingEnd?, Table.has_congr h]

@[simp] theorem lost?_place (a : Assembly) (c : Connection) : (a.place c).lost? = a.lost? :=
  lost?_congr (names_nodes_place a c)

/-! ## §5 Placing many connections -/

/-- The assembly after all connections are made or dropped, in order. -/
def placeAll (a : Assembly) (cs : List Connection) : Assembly := cs.foldl place a

@[simp] theorem placeAll_nil (a : Assembly) : a.placeAll [] = a := rfl

@[simp] theorem placeAll_cons (a : Assembly) (c : Connection) (cs : List Connection) :
    a.placeAll (c :: cs) = (a.place c).placeAll cs := rfl

/-- What every placed connection keeps, a run of them keeps. -/
theorem placeAll_invariant {P : Assembly → Prop} (hstep : ∀ a c, P a → P (a.place c))
    {a : Assembly} (h : P a) (cs : List Connection) : P (a.placeAll cs) := by
  induction cs generalizing a with
  | nil => exact h
  | cons c rest ih => exact ih (hstep a c h)

@[simp] theorem names_nodes_placeAll (a : Assembly) (cs : List Connection) :
    Table.names (a.placeAll cs).nodes = Table.names a.nodes :=
  placeAll_invariant (P := fun b => Table.names b.nodes = Table.names a.nodes)
    (fun b c h => (names_nodes_place b c).trans h) rfl cs

@[simp] theorem placeAll_strict (a : Assembly) (cs : List Connection) :
    (a.placeAll cs).strict = a.strict :=
  placeAll_invariant (P := fun b => b.strict = a.strict)
    (fun b c h => (place_strict b c).trans h) rfl cs

/-- Every edge after a run was there before, or was made of a connection that is not lost. -/
theorem of_mem_placeAll {a : Assembly} {cs : List Connection} {e : String × Edge}
    (he : e ∈ (a.placeAll cs).edges) :
    e ∈ a.edges ∨ ∃ c ∈ cs, a.lost? c = none ∧
      e.2 = { source := c.source, target := c.target, condition := c.condition } := by
  induction cs generalizing a with
  | nil => exact Or.inl he
  | cons c rest ih =>
    rw [placeAll_cons] at he
    rcases ih he with hbefore | ⟨c', hc', hkept, hedge⟩
    · unfold place at hbefore
      cases hc : a.lost? c with
      | some d =>
        rw [hc] at hbefore
        exact Or.inl hbefore
      | none =>
        rw [hc] at hbefore
        rcases Table.mem_of_mem_set hbefore with rfl | hold
        · exact Or.inr ⟨c, List.mem_cons_self .., hc, rfl⟩
        · exact Or.inl hold
    · rw [lost?_place] at hkept
      exact Or.inr ⟨c', List.mem_cons_of_mem _ hc', hkept, hedge⟩

/-- Whatever the assembly, a run that is let through places its connections. -/
theorem eq_placeAll_of_gives {a b : Assembly} {cs : List Connection}
    (h : (cs.foldlM connectOne a).Gives b) : b = a.placeAll cs := by
  induction cs generalizing a with
  | nil => exact gives_pure.1 h
  | cons c rest ih =>
    rw [List.foldlM_cons, gives_bind] at h
    obtain ⟨a', ha', hrest⟩ := h
    obtain rfl := eq_place_of_gives ha'
    exact ih hrest

/-- **A strict run stops at the first connection that is lost**, and goes through if there is
none. -/
theorem outcome_foldlM_connectOne_strict {a : Assembly} (h : a.strict = true)
    (cs : List Connection) :
    (cs.foldlM connectOne a).outcome =
      match cs.findSome? a.lost? with
      | some d => .error (.danglingLink d.linkId d.source d.target d.reason)
      | none => .ok (a.placeAll cs) := by
  induction cs generalizing a with
  | nil => rfl
  | cons c rest ih =>
    rw [List.foldlM_cons, outcome_bind, outcome_connectOne, List.findSome?_cons]
    cases hc : a.lost? c with
    | some d =>
      -- The run fails here, and the rest is never looked at.
      simp [h, Bind.bind, Except.bind]
    | none =>
      -- The connection is made, and the rest finds the same nodes as before.
      have hrest := ih ((place_strict a c).trans h)
      rw [lost?_place] at hrest
      exact hrest

/-- The connections that are lost are recorded in order. -/
theorem dropped_placeAll (a : Assembly) (cs : List Connection) :
    (a.placeAll cs).dropped = a.dropped ++ cs.filterMap a.lost? := by
  induction cs generalizing a with
  | nil => simp
  | cons c rest ih =>
    rw [placeAll_cons, ih, lost?_place]
    cases hc : a.lost? c with
    | some d => simp [place, hc]
    | none => simp [place, hc, addMade, addEdge]

/-! ## §6 The edges that are made -/

/-- Every edge id in use was made by this assembly or looks different from those that are. -/
def KnowsIds (a : Assembly) : Prop :=
  ∀ id ∈ Table.names a.edges,
    ¬ LooksGenerated id ∨ ∃ n ≤ a.made, ∃ source target, id = edgeId n source target

/-- **The next id is new**: the counter in it is higher than in every id that was made. -/
theorem KnowsIds.next_notMem {a : Assembly} (h : a.KnowsIds) (source target : String) :
    edgeId (a.made + 1) source target ∉ Table.names a.edges := by
  intro hmem
  rcases h _ hmem with hother | ⟨n, hn, s, t, heq⟩
  · -- The id in use was given, and looks different.
    exact hother (edgeId_looksGenerated ..)
  · -- The id in use was made, so its counter has been reached already.
    have hcounter : a.made + 1 = n := edgeId_counter_injective heq
    omega

theorem KnowsIds.edges_addMade {a : Assembly} (h : a.KnowsIds) (e : Edge) :
    (a.addMade e).edges = a.edges ++ [(edgeId (a.made + 1) e.source e.target, e)] :=
  Table.set_of_notMem (h.next_notMem e.source e.target) e

theorem KnowsIds.addMade {a : Assembly} (h : a.KnowsIds) (e : Edge) : (a.addMade e).KnowsIds := by
  intro id hid
  rw [h.edges_addMade] at hid
  rcases List.mem_append.1 (Table.names_append .. ▸ hid) with hold | hnew
  · -- An older id has a counter that is passed by now.
    refine (h id hold).imp_right ?_
    rintro ⟨n, hn, s, t, heq⟩
    exact ⟨n, Nat.le_succ_of_le hn, s, t, heq⟩
  · exact Or.inr ⟨a.made + 1, Nat.le_refl _, _, _, List.mem_singleton.1 hnew⟩

theorem KnowsIds.place {a : Assembly} (h : a.KnowsIds) (c : Connection) : (a.place c).KnowsIds := by
  unfold Assembly.place
  split
  · exact h
  · exact h.addMade _

/-- The entry of the `n`-th made edge. -/
def madeEntry (c : Connection) (n : Nat) : String × Edge :=
  (edgeId n c.source c.target,
    { source := c.source, target := c.target, condition := c.condition })

/-- The entries of consecutive made edges, after `n` edges have been made. -/
def madeEntries (n : Nat) (cs : List Connection) : Table Edge :=
  (cs.zipIdx (n + 1)).map fun p => madeEntry p.1 p.2

/-- **A run adds one edge for every connection that is not lost**, in order, and numbers them
without gaps. -/
theorem KnowsIds.edges_placeAll {a : Assembly} (h : a.KnowsIds) (cs : List Connection) :
    (a.placeAll cs).edges =
      a.edges ++ madeEntries a.made (cs.filter fun c => (a.lost? c).isNone) := by
  induction cs generalizing a with
  | nil => simp [madeEntries]
  | cons c rest ih =>
    rw [placeAll_cons, ih (h.place c), lost?_place]
    cases hc : a.lost? c with
    | some d =>
      -- A lost connection takes no number.
      simp [Assembly.place, hc]
    | none =>
      have hmade : (a.addMade ⟨c.source, c.target, c.condition⟩).made = a.made + 1 := rfl
      simp [Assembly.place, hc, h.edges_addMade, hmade, madeEntries, madeEntry]

end CallFlow.Assembly
