import CallFlow.Proofs.Connections
import CallFlow.Proofs.Readings
import CallFlow.Proofs.Repeated
import CallFlow.Proofs.Shapes

/-!
# Payloads Read Back

The payload of a workflow is accepted by the reader of workflows, and what is read has the same
payload. Nearly everything reads back as it was. Only free-form values may hold numbers that are not
finite, for which the runtime's format has no form: they are written as null and read back as null.
What is read is therefore the *portable* form of the workflow, which is the workflow itself unless
there are such numbers, and which has the same shape in any case.

## Sections

1. Portable values
2. Portable parts
3. Conditions
4. Nodes
5. Workflows
6. Compiled workflows
7. Payloads
-/

namespace CallFlow

open Schema

/-! ## §1 Portable values -/

namespace Json

mutual

/-- Whether all numbers in a value are finite. -/
def allFinite : Json → Bool
  | null | bool _ | int _ | str _ => true
  | float x => Decimal.isFinite x
  | arr items => allFiniteItems items
  | obj members => allFiniteMembers members

/-- `allFinite` of every item. -/
def allFiniteItems : List Json → Bool
  | [] => true
  | v :: rest => v.allFinite && allFiniteItems rest

/-- `allFinite` of the value of every member. -/
def allFiniteMembers : List (String × Json) → Bool
  | [] => true
  | (_, v) :: rest => v.allFinite && allFiniteMembers rest

end

mutual

/-- Only numbers that are not finite are replaced. -/
theorem portable_of_allFinite : ∀ {v : Json}, v.allFinite = true → v.portable = v
  | null, _ | bool _, _ | int _, _ | str _, _ => rfl
  | float _, h => if_pos h
  | arr _, h => congrArg arr (portableItems_of_allFinite h)
  | obj _, h => congrArg obj (portableMembers_of_allFinite h)

theorem portableItems_of_allFinite :
    ∀ {items : List Json}, allFiniteItems items = true → portableItems items = items
  | [], _ => rfl
  | _ :: _, h => by
    obtain ⟨hv, hrest⟩ := Bool.and_eq_true_iff.1 h
    rw [portableItems, portable_of_allFinite hv, portableItems_of_allFinite hrest]

theorem portableMembers_of_allFinite :
    ∀ {members : List (String × Json)}, allFiniteMembers members = true →
      portableMembers members = members
  | [], _ => rfl
  | (_, _) :: _, h => by
    obtain ⟨hv, hrest⟩ := Bool.and_eq_true_iff.1 h
    rw [portableMembers, portable_of_allFinite hv, portableMembers_of_allFinite hrest]

end

mutual

/-- Nothing that is not finite is left in a portable value. -/
theorem allFinite_portable : ∀ v : Json, v.portable.allFinite = true
  | null | bool _ | int _ | str _ => rfl
  | float x => by
    unfold portable
    split
    · rename_i hfinite
      exact hfinite
    · rfl
  | arr items => allFinite_portableItems items
  | obj members => allFinite_portableMembers members

theorem allFinite_portableItems :
    ∀ items : List Json, allFiniteItems (portableItems items) = true
  | [] => rfl
  | v :: rest => Bool.and_eq_true_iff.2 ⟨allFinite_portable v, allFinite_portableItems rest⟩

theorem allFinite_portableMembers :
    ∀ members : List (String × Json), allFiniteMembers (portableMembers members) = true
  | [] => rfl
  | (_, v) :: rest =>
    Bool.and_eq_true_iff.2 ⟨allFinite_portable v, allFinite_portableMembers rest⟩

end

/-- **A portable value is as portable as it gets.** -/
theorem portable_portable (v : Json) : v.portable.portable = v.portable :=
  portable_of_allFinite (allFinite_portable v)

theorem portableItems_portableItems (items : List Json) :
    portableItems (portableItems items) = portableItems items :=
  portableItems_of_allFinite (allFinite_portableItems items)

theorem portableMembers_portableMembers (members : Members) :
    portableMembers (portableMembers members) = portableMembers members :=
  portableMembers_of_allFinite (allFinite_portableMembers members)

end Json

/-! ## §2 Portable parts -/

namespace Condition

/-- The condition with its free-form value made portable. -/
def portable : Condition → Condition
  | expression value => expression value.portable
  | c => c

/-- Whether all numbers in the free-form value of a condition are finite. -/
def allFinite : Condition → Bool
  | expression value => value.allFinite
  | _ => true

theorem portable_of_allFinite {c : Condition} (h : c.allFinite = true) : c.portable = c := by
  cases c with
  | expression value => exact congrArg expression (Json.portable_of_allFinite h)
  | _ => rfl

theorem toJson_portable (c : Condition) : c.portable.toJson = c.toJson := by
  cases c with
  | expression value => simp only [portable, toJson, tag, details, Json.portable_portable]
  | _ => rfl

end Condition

namespace NodeKind

/-- What a node does, with the free-form values of a script made portable. -/
def portable : NodeKind → NodeKind
  | script s => script { s with
      knowledgeBase := Json.portableItems s.knowledgeBase
      conversationConfig := Json.portableMembers s.conversationConfig }
  | kind => kind

/-- Whether all numbers in the free-form values of a script are finite. -/
def allFinite : NodeKind → Bool
  | script s => Json.allFiniteItems s.knowledgeBase && Json.allFiniteMembers s.conversationConfig
  | _ => true

theorem portable_of_allFinite {kind : NodeKind} (h : kind.allFinite = true) :
    kind.portable = kind := by
  cases kind with
  | script s =>
    obtain ⟨hknowledge, hconfig⟩ := Bool.and_eq_true_iff.1 h
    rw [portable, Json.portableItems_of_allFinite hknowledge,
      Json.portableMembers_of_allFinite hconfig]
  | _ => rfl

theorem tag_portable (kind : NodeKind) : kind.portable.tag = kind.tag := by
  cases kind <;> rfl

theorem details_portable (kind : NodeKind) : kind.portable.details = kind.details := by
  cases kind with
  | script s =>
    simp only [portable, details, Json.portableItems_portableItems,
      Json.portableMembers_portableMembers]
  | _ => rfl

end NodeKind

/-- The node with its free-form values made portable. -/
def Node.portable (n : Node) : Node := { n with kind := n.kind.portable }

theorem Node.toJson_portable (n : Node) : n.portable.toJson = n.toJson := by
  rw [toJson, portable, NodeKind.tag_portable, NodeKind.details_portable, toJson]

/-- The edge with its free-form value made portable. -/
def Edge.portable (e : Edge) : Edge := { e with condition := e.condition.portable }

theorem Edge.toJson_portable (e : Edge) : e.portable.toJson = e.toJson := by
  rw [toJson, portable, Condition.toJson_portable, toJson]

/-! ## §3 Conditions -/

/-- **A condition reads back.** -/
theorem Condition.read_toJson (c : Condition) : read c.toJson = .accepted c.portable := by
  cases c with
  | unconditional => rfl
  | llm text => rfl
  | result successful => rfl
  | expression value => rfl

theorem Edge.read_toJson (e : Edge) : read e.toJson = .accepted e.portable := by
  have hcondition : Field.required "forward_condition" Condition.read
      [("source", .str e.source), ("target", .str e.target),
        ("forward_condition", e.condition.toJson)] = .accepted e.condition.portable :=
    Field.required_of_get? rfl e.condition.read_toJson
  simp only [read, toJson, readRecord, strictly, hcondition]
  rfl

/-! ## §4 Nodes -/

/-- A tagged record reads back if the reader of its tag accepts it. -/
theorem readTagged_of_tag {α : Type} {reader? : String → Option (Members → Checked α)}
    {read : Members → Checked α} {m : Members} {tag : String} {a : α}
    (htag : Table.get? m "type" = some (.str tag)) (hreader : reader? tag = some read)
    (hread : read m = .accepted a) : readTagged reader? (.obj m) = .accepted a := by
  unfold readTagged
  simp only [htag, hreader, hread, Checked.under_accepted]

namespace NodeKind

theorem readStyle_name (style : TransferStyle) :
    readStyle (.str style.name) = .accepted style := by
  cases style with
  | conference => rfl
  | blind => rfl

/-- What is read of a node besides the parts that all nodes have. -/
structure ReadsBack (kind : NodeKind) (fields : List Field)
    (readKind : Members → Checked NodeKind) : Prop where
  /-- The members that all nodes have are of no account here. -/
  read : ∀ position order tag, readKind ([("position", position), ("edge_order", order),
    ("type", tag)] ++ kind.details) = .accepted kind.portable
  declared : ∀ position order tag, extraMembers (Node.commonFields ++ fields)
    ([("position", position), ("edge_order", order), ("type", tag)] ++ kind.details) = []

theorem readToolReference_written (id : String) :
    readToolReference (.obj [("tool_id", .str id)]) = .accepted id := rfl

/-- **Every kind of node reads back**: there is a reader for its tag, which accepts all that is
written. -/
theorem exists_readsBack (kind : NodeKind) :
    ∃ fields readKind, reader? kind.tag = some (fields, readKind) ∧
      kind.ReadsBack fields readKind := by
  cases kind with
  | start => exact ⟨_, _, rfl, fun _ _ _ => rfl, fun _ _ _ => rfl⟩
  | finish => exact ⟨_, _, rfl, fun _ _ _ => rfl, fun _ _ _ => rfl⟩
  | script s =>
    refine ⟨_, _, rfl, fun position order tag => ?_, fun _ _ _ => rfl⟩
    -- Texts and truth values are read at once, lists item by item.
    generalize hm : [("position", position), ("edge_order", order), ("type", tag)] ++
      (script s).details = m
    have htools : Field.optional "additional_tool_ids" [] (readList readText) m =
        .accepted s.toolIds :=
      Field.optional_of_get? (by rw [← hm]; rfl) (readList_ofTexts s.toolIds)
    have hknowledge : Field.optional "additional_knowledge_base" [] (readList .accepted) m =
        .accepted (Json.portableItems s.knowledgeBase) :=
      Field.optional_of_get? (by rw [← hm]; rfl) (readList_accepted _)
    rw [htools, hknowledge, ← hm]
    rfl
  | phoneTransfer number style =>
    refine ⟨_, _, rfl, fun position order tag => ?_, fun _ _ _ => rfl⟩
    generalize hm : [("position", position), ("edge_order", order), ("type", tag)] ++
      (phoneTransfer number style).details = m
    have hstyle : Field.optional "transfer_type" .conference readStyle m = .accepted style :=
      Field.optional_of_get? (by rw [← hm]; rfl) (readStyle_name style)
    rw [hstyle, ← hm]
    rfl
  | agentTransfer agentId delayMs firstMessage =>
    exact ⟨_, _, rfl, fun _ _ _ => rfl, fun _ _ _ => rfl⟩
  | tools ids =>
    refine ⟨_, _, rfl, fun position order tag => ?_, fun _ _ _ => rfl⟩
    have hread : readList readToolReference
        (.arr (ids.map fun id => .obj [("tool_id", .str id)])) = .accepted (ids.map id) :=
      readList_map readToolReference_written ids
    have htools : Field.optional "tools" [] (readList readToolReference)
        ([("position", position), ("edge_order", order), ("type", tag)] ++ (tools ids).details) =
          .accepted ids := by
      rw [List.map_id] at hread
      exact Field.optional_of_get? rfl hread
    rw [htools]
    rfl

end NodeKind

namespace Node

/-- **A node reads back.** -/
theorem read_toJson (n : Node) : read n.toJson = .accepted n.portable := by
  obtain ⟨fields, readKind, hreader, hback⟩ := n.kind.exists_readsBack
  obtain ⟨hkind, hdeclared⟩ := hback
  specialize hkind n.position.toJson (Json.ofTexts n.edgeOrder) (.str n.kind.tag)
  specialize hdeclared n.position.toJson (Json.ofTexts n.edgeOrder) (.str n.kind.tag)
  have horder : Field.optional "edge_order" [] (readList readText)
      ([("position", n.position.toJson), ("edge_order", Json.ofTexts n.edgeOrder),
        ("type", .str n.kind.tag)] ++ n.kind.details) = .accepted n.edgeOrder :=
    Field.optional_of_get? rfl (readList_ofTexts n.edgeOrder)
  have htag : reader? n.kind.tag = some (strictly (commonFields ++ fields) fun m =>
      Node.mk
        <$> Field.optional "position" {} Position.read m
        <*> Field.optional "edge_order" [] (readList readText) m
        <*> readKind m) := by
    rw [reader?, hreader]
    rfl
  refine readTagged_of_tag rfl htag ?_
  simp only [strictly, horder, hkind, refuseExtra_declared hdeclared]
  rfl

end Node

/-! ## §5 Workflows -/

namespace Workflow

/-- The workflow with all free-form values made portable. -/
def portable (w : Workflow) : Workflow := w.mapParts Node.portable Edge.portable

/-- Whether all numbers in the free-form values of a workflow are finite. -/
def allFinite (w : Workflow) : Bool :=
  w.nodes.all (·.2.kind.allFinite) && w.edges.all (·.2.condition.allFinite)

theorem keepsShape_portable : KeepsShape Node.portable Edge.portable where
  isStart n := by
    obtain ⟨position, edgeOrder, kind⟩ := n
    cases kind <;> rfl
  isTerminal n := by
    obtain ⟨position, edgeOrder, kind⟩ := n
    cases kind <;> rfl
  edgeOrder _ := rfl
  source _ := rfl
  target _ := rfl

variable (w : Workflow)

/-- **A workflow reads back** in its portable form. -/
theorem read_toJson : read w.toJson = .accepted w.portable := by
  have hnodes : Field.optional "nodes" [] (readDictionary Node.read)
      [("nodes", .obj (w.nodes.map fun e => (e.1, e.2.toJson))),
        ("edges", .obj (w.edges.map fun e => (e.1, e.2.toJson)))] =
      .accepted w.portable.nodes :=
    Field.optional_of_get? rfl (readDictionary_map Node.read_toJson w.nodes)
  have hedges : Field.optional "edges" [] (readDictionary Edge.read)
      [("nodes", .obj (w.nodes.map fun e => (e.1, e.2.toJson))),
        ("edges", .obj (w.edges.map fun e => (e.1, e.2.toJson)))] =
      .accepted w.portable.edges :=
    Field.optional_of_get? rfl (readDictionary_map Edge.read_toJson w.edges)
  simp only [read, toJson, readRecord, strictly, hnodes, hedges]
  rfl

theorem toJson_portable : w.portable.toJson = w.toJson := by
  simp only [toJson, portable, mapParts, Table.mapValues, List.map_map, Function.comp_def,
    Node.toJson_portable, Edge.toJson_portable]

/-- A workflow without numbers that are not finite is portable. -/
theorem portable_of_allFinite {w : Workflow} (h : w.allFinite = true) : w.portable = w := by
  obtain ⟨hnodes, hedges⟩ := Bool.and_eq_true_iff.1 h
  rw [List.all_eq_true] at hnodes hedges
  have hsame : Table.mapValues Node.portable w.nodes = w.nodes :=
    Table.mapValues_of_fixed fun e he => by
      rw [Node.portable, NodeKind.portable_of_allFinite (hnodes e he)]
  have hsame' : Table.mapValues Edge.portable w.edges = w.edges :=
    Table.mapValues_of_fixed fun e he => by
      rw [Edge.portable, Condition.portable_of_allFinite (hedges e he)]
  rw [portable, mapParts, hsame, hsame']

end Workflow

/-! ## §6 Compiled workflows -/

/-- No condition on a link has a free-form value. -/
theorem Transition.allFinite_ofLink (source : Option Step) (l : Link) :
    (ofLink source l).allFinite = true := by
  unfold ofLink
  split
  · rfl
  · split
    · rfl
    · dsimp only
      split <;> rfl

theorem Hop.allFinite_combine (hops : List Hop) : (combine hops).allFinite = true := by
  unfold combine
  split <;> rfl

/-- The nodes of steps have no free-form values either. -/
theorem Step.ComesTo.allFinite {s : Step} {c : Compiled} (h : s.ComesTo c) {n : Node}
    (hn : c.node = some n) : n.kind.allFinite = true := by
  cases h <;> cases hn <;> rfl

namespace Flow

variable {f : Flow} {s : Settings}

theorem StandsFor.allFinite {l : Link} {cs : List Connection} (h : f.StandsFor l cs)
    {c : Connection} (hc : c ∈ cs) : c.condition.allFinite = true := by
  cases h with
  | nothing => cases hc
  | itself =>
    rw [List.mem_singleton.1 hc]
    exact Transition.allFinite_ofLink _ l
  | chains =>
    obtain ⟨chain, -, rfl⟩ := List.mem_map.1 hc
    exact Hop.allFinite_combine chain.hops

namespace Passes

variable (p : Passes f)

theorem allFinite_of_mem_plan {c : Connection} (hc : c ∈ p.plan) :
    c.condition.allFinite = true := by
  obtain ⟨cs, hcs, hmem⟩ := List.mem_flatten.1 hc
  obtain ⟨l, -, hgives⟩ := Attempt.exists_of_mem_right p.calls hcs
  exact (standsFor_of_gives hgives).allFinite hmem

theorem allFinite_edge {e : String × Edge} (he : e ∈ (p.result s).workflow.edges) :
    e.2.condition.allFinite = true := by
  rcases Assembly.of_mem_placeAll he with hfirst | ⟨c, hc, -, hmade⟩
  · rw [p.condition_of_mem_entered s hfirst]
    rfl
  · rw [hmade]
    exact p.allFinite_of_mem_plan hc

theorem allFinite_node {e : String × Node} (he : e ∈ (p.result s).workflow.nodes) :
    e.2.kind.allFinite = true := by
  have hget : Table.get? (p.result s).workflow.nodes e.1 = some e.2 :=
    (Table.get?_eq_some_iff_mem (p.nodup_nodes_result s)).2 he
  by_cases hid : e.1 = s.startNodeId
  · rw [hid] at hget
    have hstart := p.start_result s hget
    cases hkind : e.2.kind <;> simp_all [NodeKind.isStart, NodeKind.allFinite]
  · obtain ⟨t, -, c, node, hc, hnode, hbare⟩ := p.exists_makes s hid hget
    have hkind : node.bare.kind = e.2.bare.kind := congrArg Node.kind hbare
    rw [show e.2.kind = node.kind from hkind.symm]
    exact (Step.comesTo_of_gives hc).allFinite hnode

end Passes

/-- **A compiled workflow has no free-form values.** -/
theorem Returns.allFinite {c : Compilation} (h : f.Returns s c) : c.workflow.allFinite = true := by
  obtain ⟨p, hp⟩ := h.passes
  have hworkflow : c.workflow = (p.result s).workflow := by rw [hp]
  rw [hworkflow, Workflow.allFinite, Bool.and_eq_true, List.all_eq_true, List.all_eq_true]
  exact ⟨fun e he => p.allFinite_node he, fun e he => p.allFinite_edge he⟩

end Flow

/-! ## §7 Payloads -/

namespace Workflow

/-- **The payload of every workflow reads back**, and what is read has the same payload, the same
ids in the same order, the same findings wherever conversations begin, and lists the same edges at
each node, as far as a payload can tell. It is the same workflow altogether if all of its free-form
numbers are finite, and so if it has been compiled. -/
theorem payload_reads_back (w : Workflow) :
    ∃ w', read w.toJson = .accepted w' ∧ w'.toJson = w.toJson ∧
      Table.names w'.nodes = Table.names w.nodes ∧ Table.names w'.edges = Table.names w.edges ∧
      w'.nodes.map (·.2.edgeOrder) = w.nodes.map (·.2.edgeOrder) ∧
      (∀ startId, w'.validate startId = w.validate startId) ∧
      (∀ id, (w'.outgoing id).map Edge.toJson = (w.outgoing id).map Edge.toJson) ∧
      (w.allFinite = true ∨ (∃ f s c, Flow.Returns f s c ∧ c.workflow = w) → w' = w) := by
  refine ⟨w.portable, w.read_toJson, w.toJson_portable, Table.names_mapValues ..,
    Table.names_mapValues .., ?_, w.validate_mapParts keepsShape_portable, fun id => ?_, ?_⟩
  · show (Table.mapValues Node.portable w.nodes).map _ = _
    rw [Table.mapValues, List.map_map]
    rfl
  · rw [portable, w.outgoing_mapParts keepsShape_portable, List.map_map]
    simp only [Function.comp_def, Edge.toJson_portable]
  · rintro (hfinite | ⟨f, s, c, hreturns, rfl⟩)
    · exact portable_of_allFinite hfinite
    · exact portable_of_allFinite hreturns.allFinite

end Workflow

end CallFlow
