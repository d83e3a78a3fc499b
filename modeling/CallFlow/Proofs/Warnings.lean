import CallFlow.Proofs.Connections
import CallFlow.Proofs.Reachability

/-!
# What Warnings Say About the Authored Flow

The validator looks at a workflow and knows nothing of the flow that it was compiled from. Its
warnings are true of that flow all the same. A node that cannot be reached from the start is a step
to which no walk leads from the entry; and a node that lists no edges is a step from which no walk
leads through branches to another step with a node.

Walks in the flow pass steps and branches, while paths in the workflow pass nodes only. A walk is
cut at the steps that it passes: what is left between two of them is a walk through branches, and
becomes an edge.

## Sections

1. Cutting walks at steps
2. Edges and walks
3. Nodes that are not reached
4. Nodes without edges
5. Texts of warnings
6. Warnings of compiled flows
-/

namespace CallFlow

open Attempt Relation

/-! ## §1 Cutting walks at steps -/

namespace Flow

variable {f : Flow} {a b : String}

/-- A walk through branches leads to the next step with a node. -/
def NextStep (f : Flow) (a b : String) : Prop :=
  f.HasActionable b ∧ f.Walk f.HasBranch a b

/-- One or more links lead from one id to another, past steps with nodes and branches, or both ids
are the same. -/
def Reaches (f : Flow) (a b : String) : Prop :=
  b = a ∨ f.Walk (fun id => f.HasActionable id ∨ f.HasBranch id) a b

/-- **A walk to a step goes from step to step.** -/
theorem Walk.steps (w : f.Walk (fun id => f.HasActionable id ∨ f.HasBranch id) a b)
    (hb : f.HasActionable b) : ∃ first, f.NextStep a first ∧ ReflTransGen f.NextStep first b := by
  induction w with
  | @link a b l hl ha htarget => exact ⟨b, ⟨hb, .link hl ha htarget⟩, .refl⟩
  | @step a b l hl ha hthrough _ ih =>
    obtain ⟨first, hfirst, hrest⟩ := ih hb
    rcases hthrough with hactionable | hbranch
    · -- The first link leads to a step, and the rest of the walk goes on from there.
      exact ⟨l.target, ⟨hactionable, .link hl ha rfl⟩, .head hfirst hrest⟩
    · exact ⟨first, ⟨hfirst.1, .step hl ha hbranch hfirst.2⟩, hrest⟩

theorem reaches_iff_steps (hb : f.HasActionable b) :
    f.Reaches a b ↔ ReflTransGen f.NextStep a b := by
  constructor
  · rintro (rfl | w)
    · exact .refl
    · obtain ⟨first, hfirst, hrest⟩ := w.steps hb
      exact .head hfirst hrest
  · intro hsteps
    induction hsteps with
    | refl => exact Or.inl rfl
    | @tail b c _ hlast ih =>
      have wlast : f.Walk (fun id => f.HasActionable id ∨ f.HasBranch id) b c :=
        hlast.2.imp fun _ => Or.inr
      by_cases hstep : f.HasActionable b
      · rcases ih hstep with rfl | w
        · exact Or.inr wlast
        · exact Or.inr (w.append (Or.inl hstep) wlast)
      · -- Only the first id may be no step, and then nothing comes before it.
        rename_i hbefore
        rcases hbefore.cases_tail with rfl | ⟨_, -, hnext⟩
        · exact Or.inr wlast
        · exact absurd hnext.1 hstep

/-! ## §2 Edges and walks -/

namespace Passes

variable (p : Passes f) (s : Settings)

theorem leadsToNode_iff (hf : f.DistinctIds) (hclear : f.KeepsClear s.startNodeId)
    (hs : ¬ Assembly.LooksGenerated s.startEdgeId) (hne : s.startEdgeId.isEmpty = false) :
    (p.result s).workflow.LeadsToNode a b ↔
      (a = s.startNodeId ∧ p.entry.stepId = some b) ∨ f.HasActionable a ∧ f.NextStep a b := by
  rw [Workflow.LeadsToNode, p.exists_edge_iff s hs hne, connects_iff_walk hf hclear]
  -- Both kinds of edges lead to a step with a node.
  refine and_iff_left_of_imp ?_
  rintro (⟨-, hentry⟩ | ⟨-, hb, -⟩)
  · exact (p.has_result s b).2 (Or.inr (hasActionable_of_entry p.entry_gives hentry))
  · exact (p.has_result s b).2 (Or.inr hb)

/-! ## §3 Nodes that are not reached -/

/-- **A path from the start is a walk from the entry.** -/
theorem mem_reachable_iff (hf : f.DistinctIds) (hclear : f.KeepsClear s.startNodeId)
    (hs : ¬ Assembly.LooksGenerated s.startEdgeId) (hne : s.startEdgeId.isEmpty = false)
    {entryId : String} (hentry : p.entry.stepId = some entryId) (hb : f.HasActionable b) :
    b ∈ (p.result s).workflow.reachableFrom s.startNodeId ↔ f.Reaches entryId b := by
  rw [reaches_iff_steps hb, Workflow.mem_reachableFrom, p.has_result,
    and_iff_right (Or.inl rfl : s.startNodeId = s.startNodeId ∨ _)]
  constructor
  · intro hpath
    have hstart := hclear.ne_of_hasActionable hb
    clear hb
    induction hpath with
    | refl => exact absurd rfl hstart
    | @tail b c _ hedge ih =>
      rcases (p.leadsToNode_iff s hf hclear hs hne).1 hedge with ⟨-, hfirst⟩ | ⟨hb, hnext⟩
      · -- The first edge leads to the entry.
        obtain rfl := Option.some.inj (hentry.symm.trans hfirst)
        exact .refl
      · exact (ih (hclear.ne_of_hasActionable hb)).tail hnext
  · intro hsteps
    have hfirst : (p.result s).workflow.LeadsToNode s.startNodeId entryId :=
      (p.leadsToNode_iff s hf hclear hs hne).2 (Or.inl ⟨rfl, hentry⟩)
    clear hb
    -- Every step on the way has a node, the entry included.
    have hpath : f.HasActionable b ∧
        ReflTransGen (p.result s).workflow.LeadsToNode s.startNodeId b := by
      induction hsteps with
      | refl => exact ⟨hasActionable_of_entry p.entry_gives hentry, .single hfirst⟩
      | tail _ hnext ih =>
        exact ⟨hnext.1, ih.2.tail
          ((p.leadsToNode_iff s hf hclear hs hne).2 (Or.inr ⟨ih.1, hnext⟩))⟩
    exact hpath.2

/-! ## §4 Nodes without edges -/

/-- A step lists no edges just in case no walk leads from it to another one. -/
theorem edgeOrder_isEmpty_iff (hf : f.DistinctIds) (hclear : f.KeepsClear s.startNodeId)
    (hs : ¬ Assembly.LooksGenerated s.startEdgeId) (hne : s.startEdgeId.isEmpty = false)
    {n : String × Node} (hn : n ∈ (p.result s).workflow.nodes) (ha : f.HasActionable n.1) :
    n.2.edgeOrder.isEmpty = true ↔ ¬ ∃ b, f.NextStep n.1 b := by
  have hempty : n.2.edgeOrder.isEmpty = true ↔
      ¬ ∃ e ∈ (p.result s).workflow.edges, e.2.source = n.1 := by
    rw [(p.intact_result s hs).listed n hn, List.isEmpty_iff]
    simp [Workflow.idsFrom, Table.names, List.filter_eq_nil_iff]
  rw [hempty, not_iff_not]
  constructor
  · rintro ⟨e, he, hsource⟩
    rcases (p.exists_edge_iff s hs hne).1 ⟨e, he, hsource, rfl⟩ with ⟨hstart, -⟩ | hconnects
    · exact absurd hstart (hclear.ne_of_hasActionable ha)
    · exact ⟨_, ((connects_iff_walk hf hclear).1 hconnects).2⟩
  · rintro ⟨b, hnext⟩
    obtain ⟨e, he, hsource, -⟩ := (p.exists_edge_iff s hs hne).2
      (Or.inr ((connects_iff_walk hf hclear).2 ⟨ha, hnext⟩))
    exact ⟨e, he, hsource⟩

end Passes

end Flow

/-- The type of a node tells whether a conversation may end there. -/
theorem NodeKind.isTerminal_iff_tag (kind : NodeKind) :
    kind.isTerminal = true ↔ kind.tag ∈ ["end", "phone_number", "standalone_agent"] := by
  cases kind <;> simp [isTerminal, tag]

/-- Steps that end the call or hand it over. -/
def Category.endsHere (c : Category) : Bool :=
  c.isTerminal || c.isPhoneTransfer || c.isAgentTransfer

theorem Category.endsHere_iff_nodeType (c : Category) :
    c.endsHere = true ↔ c.nodeType ∈ ["end", "phone_number", "standalone_agent"] := by
  cases c <;> decide

/-- A conversation may end at a node just in case its step ends the call or hands it over. -/
theorem Step.Makes.isTerminal_eq {t : Step} {n : Node} (h : t.Makes n) :
    n.kind.isTerminal = t.category.endsHere := by
  obtain ⟨c, -, hbrings⟩ := h.brings
  rw [Bool.eq_iff_iff, NodeKind.isTerminal_iff_tag, hbrings.tag, Category.endsHere_iff_nodeType]

/-! ## §5 Texts of warnings -/

namespace Workflow

/-- The warning about a node that is not reached. -/
def unreachedText (id : String) : String := "Node " ++ id ++ " is not reachable from the start node"

/-- The warning about a node without edges. -/
def deadEndText (id : String) : String := "Node " ++ id ++ " has no outgoing edges"

theorem unreachedText_injective : Function.Injective unreachedText := by
  intro a b h
  simpa [unreachedText] using h

theorem deadEndText_injective : Function.Injective deadEndText := by
  intro a b h
  simpa [deadEndText] using h

/-- The two warnings end in different letters. -/
theorem unreachedText_ne_deadEndText (a b : String) : unreachedText a ≠ deadEndText b := by
  intro h
  have hlast : (unreachedText a).toList.getLast? = (deadEndText b).toList.getLast? := by rw [h]
  simp [unreachedText, deadEndText, List.getLast?_cons, List.getLast?_append] at hlast

variable {w : Workflow} {startId id : String}

theorem warnings_eq_texts :
    w.warnings startId =
      (w.unreachable startId).map unreachedText ++ (w.deadEnds startId).map deadEndText := rfl

/-- **Every warning is given once**, and can be told from all others. -/
theorem nodup_warnings (h : (Table.names w.nodes).Nodup) : (w.warnings startId).Nodup := by
  have hunreachable : (w.unreachable startId).Nodup := h.filter _
  have hdeadEnds : (w.deadEnds startId).Nodup := h.sublist (List.filter_sublist.map _)
  rw [warnings_eq_texts, List.nodup_append]
  refine ⟨hunreachable.map unreachedText_injective, hdeadEnds.map deadEndText_injective, ?_⟩
  intro x hx y hy
  obtain ⟨a, -, rfl⟩ := List.mem_map.1 hx
  obtain ⟨b, -, rfl⟩ := List.mem_map.1 hy
  exact unreachedText_ne_deadEndText a b

theorem unreachedText_mem_warnings :
    unreachedText id ∈ w.warnings startId ↔ id ∈ w.unreachable startId := by
  rw [warnings_eq_texts, List.mem_append, List.mem_map_of_injective unreachedText_injective,
    or_iff_left]
  intro hmem
  obtain ⟨b, -, hsame⟩ := List.mem_map.1 hmem
  exact unreachedText_ne_deadEndText id b hsame.symm

theorem deadEndText_mem_warnings :
    deadEndText id ∈ w.warnings startId ↔ id ∈ w.deadEnds startId := by
  rw [warnings_eq_texts, List.mem_append, List.mem_map_of_injective deadEndText_injective,
    or_iff_right]
  intro hmem
  obtain ⟨a, -, hsame⟩ := List.mem_map.1 hmem
  exact unreachedText_ne_deadEndText a id hsame

theorem mem_unreachable :
    id ∈ w.unreachable startId ↔
      (Table.has w.nodes id = true ∧ id ≠ startId) ∧ id ∉ w.reachableFrom startId := by
  rw [Table.has_iff_mem_names]
  simp [unreachable, and_assoc]

theorem mem_deadEnds :
    id ∈ w.deadEnds startId ↔
      ∃ n, (id, n) ∈ w.nodes ∧ id ≠ startId ∧ n.kind.isTerminal = false ∧
        n.edgeOrder.isEmpty = true := by
  simp [deadEnds, and_assoc]

end Workflow

namespace Flow

variable {f : Flow}

/-! ## §6 Warnings of compiled flows -/

namespace Passes

variable (p : Passes f) (s : Settings)

/-- The node of a step that is declared once is the one that it makes. -/
theorem node_of_step (hf : f.DistinctIds) {t : Step} (ht : t ∈ f.steps)
    (hactionable : t.isActionable = true) (hstart : t.id ≠ s.startNodeId) :
    ∃ n, (t.id, n) ∈ (p.result s).workflow.nodes ∧ t.Makes n := by
  have hlast : f.lastActionable? t.id = some t :=
    lastActionable?_of_step? (hf.step?_eq_some.2 ⟨ht, rfl⟩) hactionable
  rcases p.node_cases s hstart with ⟨t', n, hlast', hn, hmakes⟩ | ⟨hnone, -⟩
  · obtain rfl := Option.some.inj (hlast.symm.trans hlast')
    exact ⟨n, Table.mem_of_get?_eq_some hn, hmakes⟩
  · rw [hlast] at hnone
    cases hnone

theorem mem_unreachable_iff (hf : f.DistinctIds) (hclear : f.KeepsClear s.startNodeId)
    (hs : ¬ Assembly.LooksGenerated s.startEdgeId) (hne : s.startEdgeId.isEmpty = false)
    {entryId id : String} (hentry : p.entry.stepId = some entryId) (hid : f.HasActionable id) :
    id ∈ (p.result s).workflow.unreachable s.startNodeId ↔ ¬ f.Reaches entryId id := by
  have hnode : Table.has (p.result s).workflow.nodes id = true ∧ id ≠ s.startNodeId :=
    ⟨(p.has_result s id).2 (Or.inr hid), hclear.ne_of_hasActionable hid⟩
  rw [Workflow.mem_unreachable, and_iff_right hnode,
    p.mem_reachable_iff s hf hclear hs hne hentry hid]

theorem mem_deadEnds_iff (hf : f.DistinctIds) (hclear : f.KeepsClear s.startNodeId)
    (hs : ¬ Assembly.LooksGenerated s.startEdgeId) (hne : s.startEdgeId.isEmpty = false)
    {t : Step} (ht : t ∈ f.steps) (hactionable : t.isActionable = true) :
    t.id ∈ (p.result s).workflow.deadEnds s.startNodeId ↔
      t.category.endsHere = false ∧ ¬ ∃ b, f.NextStep t.id b := by
  have hid : f.HasActionable t.id := ⟨t, ht, rfl, hactionable⟩
  have hstart := hclear.ne_of_hasActionable hid
  have hnodup := (p.intact_result s hs).nodes_nodup
  obtain ⟨n, hn, hmakes⟩ := p.node_of_step s hf ht hactionable hstart
  have hempty := p.edgeOrder_isEmpty_iff s hf hclear hs hne hn hid
  rw [Workflow.mem_deadEnds, ← hempty, ← hmakes.isTerminal_eq]
  constructor
  · rintro ⟨n', hn', -, hends⟩
    -- There is no other node with this id.
    have hget := (Table.get?_eq_some_iff_mem hnodup).2 hn
    have hget' := (Table.get?_eq_some_iff_mem hnodup).2 hn'
    obtain rfl := Option.some.inj (hget'.symm.trans hget)
    exact hends
  · intro hends
    exact ⟨n, hn, hstart, hends⟩

/-- Only steps with nodes are warned about. -/
theorem step_of_mem_warnings {text : String}
    (h : text ∈ (p.result s).workflow.warnings s.startNodeId) :
    ∃ t ∈ f.steps, t.isActionable = true ∧
      (text = Workflow.unreachedText t.id ∨ text = Workflow.deadEndText t.id) := by
  have hstep : ∀ {id}, Table.has (p.result s).workflow.nodes id = true → id ≠ s.startNodeId →
      ∃ t ∈ f.steps, t.isActionable = true ∧ t.id = id := by
    intro id hid hstart
    obtain ⟨t, ht, htid, hactionable⟩ := ((p.has_result s id).1 hid).resolve_left hstart
    exact ⟨t, ht, hactionable, htid⟩
  rw [Workflow.warnings_eq_texts, List.mem_append] at h
  rcases h with hunreached | hdead
  · obtain ⟨id, hid, rfl⟩ := List.mem_map.1 hunreached
    obtain ⟨⟨hhas, hstart⟩, -⟩ := Workflow.mem_unreachable.1 hid
    obtain ⟨t, ht, hactionable, rfl⟩ := hstep hhas hstart
    exact ⟨t, ht, hactionable, Or.inl rfl⟩
  · obtain ⟨id, hid, rfl⟩ := List.mem_map.1 hdead
    obtain ⟨n, hn, hstart, -⟩ := Workflow.mem_deadEnds.1 hid
    have hhas := (Table.has_iff_mem_names ..).2 (Table.mem_names_of_mem hn)
    obtain ⟨t, ht, hactionable, rfl⟩ := hstep hhas hstart
    exact ⟨t, ht, hactionable, Or.inr rfl⟩

end Passes

/-- **Warnings tell the truth about the authored flow.** Let no id be declared twice, and none be
that of the start. Then a step with a node is called unreachable just in case no walk leads to it
from the entry, and it is said to have no outgoing edges just in case it does not end the call and
no walk leads through branches to another step. No other warnings are given, and none twice. -/
theorem warnings_truthful (f : Flow) (hf : f.DistinctIds)
    (hclear : f.KeepsClear Workflow.defaultStartId) {c : Compilation} (h : f.Returns {} c) :
    c.validate.warnings.Nodup ∧
    (∀ t ∈ f.steps, t.isActionable = true →
      (∃ entryId, c.entryId = some entryId ∧
        ("Node " ++ t.id ++ " is not reachable from the start node" ∈ c.validate.warnings ↔
          ¬ f.Reaches entryId t.id)) ∧
      ("Node " ++ t.id ++ " has no outgoing edges" ∈ c.validate.warnings ↔
        t.category.endsHere = false ∧ ¬ ∃ b, f.NextStep t.id b)) ∧
    ∀ text ∈ c.validate.warnings, ∃ t ∈ f.steps, t.isActionable = true ∧
      (text = "Node " ++ t.id ++ " is not reachable from the start node" ∨
        text = "Node " ++ t.id ++ " has no outgoing edges") := by
  obtain ⟨p, hp⟩ := h.passes
  have hs : ¬ Assembly.LooksGenerated ({} : Settings).startEdgeId := by decide
  have hintact := p.intact_result {} hs
  have hentry : c.entryId = p.entry.stepId := by rw [hp]; rfl
  have hwarnings : c.validate.warnings =
      (p.result {}).workflow.warnings Workflow.defaultStartId := by
    have hworkflow : c.workflow = (p.result {}).workflow := by rw [hp]
    have hstart : c.startId = Workflow.defaultStartId := by
      rw [Compilation.startId, hworkflow, hintact.startIds_eq]
      rfl
    rw [Compilation.validate, hstart, hworkflow]
    rfl
  rw [hwarnings]
  refine ⟨Workflow.nodup_warnings hintact.nodes_nodup, fun t ht hactionable => ⟨?_, ?_⟩,
    fun text htext => p.step_of_mem_warnings {} htext⟩
  · have hid : f.HasActionable t.id := ⟨t, ht, rfl, hactionable⟩
    obtain ⟨entryId, hchosen⟩ := exists_stepId_of_entry p.entry_gives hid
    exact ⟨entryId, hentry.trans hchosen, Workflow.unreachedText_mem_warnings.trans
      (p.mem_unreachable_iff {} hf hclear hs rfl hchosen hid)⟩
  · exact Workflow.deadEndText_mem_warnings.trans
      (p.mem_deadEnds_iff {} hf hclear hs rfl ht hactionable)

/-- A flow with a step to which no link leads, and from which none leads on. -/
def backwater : Flow where
  steps := [
    { id := "a", type := some "message" },
    { id := "c", type := some "condition" },
    { id := "b", type := some "end" },
    { id := "m", type := some "message" }]
  links := [
    { id := "e1", source := "a", target := "c" },
    { id := "e2", source := "c", target := "b" }]

/-- The step is warned about for both reasons. The end is not, since a walk through the branch leads
to it. -/
theorem warnings_truthful_backwater :
    backwater.DistinctIds ∧ backwater.KeepsClear Workflow.defaultStartId ∧
      ∃ c, backwater.Returns {} c ∧
        "Node " ++ "m" ++ " is not reachable from the start node" ∈ c.validate.warnings ∧
        "Node " ++ "m" ++ " has no outgoing edges" ∈ c.validate.warnings ∧
        "Node " ++ "b" ++ " is not reachable from the start node" ∉ c.validate.warnings := by
  have hids : backwater.DistinctIds := by decide
  have hclear : backwater.KeepsClear Workflow.defaultStartId := ⟨by decide, by decide⟩
  obtain ⟨c, hgives⟩ := gives_of_succeeds (a := backwater.compile {}) (by decide +kernel)
  have hreturns : backwater.Returns {} c := .plain hgives
  have hentry : (backwater.compile {}).outcome.map Compilation.entryId = .ok (some "a") := by
    decide +kernel
  rw [hgives] at hentry
  obtain ⟨-, hsteps, -⟩ := warnings_truthful backwater hids hclear hreturns
  obtain ⟨⟨entry, hchosen, hm⟩, hmdead⟩ :=
    hsteps _ (List.mem_of_getElem? (i := 3) rfl) (by decide +kernel)
  obtain ⟨⟨entry', hchosen', hb⟩, -⟩ :=
    hsteps _ (List.mem_of_getElem? (i := 2) rfl) (by decide +kernel)
  obtain rfl : entry = "a" := Option.some.inj (hchosen.symm.trans (Except.ok.inj hentry))
  obtain rfl : entry' = "a" := Option.some.inj (hchosen'.symm.trans (Except.ok.inj hentry))
  refine ⟨hids, hclear, c, hreturns, hm.2 ?_, hmdead.2 ⟨by decide +kernel, ?_⟩, ?_⟩
  · -- No link leads to the step.
    rintro (hsame | hwalk)
    · exact absurd hsame (by decide)
    · obtain ⟨l, hl, htarget⟩ := hwalk.exists_last
      exact absurd htarget ((by decide : ∀ l ∈ backwater.links, l.target ≠ "m") l hl)
  · -- No link leaves it.
    have hnone : ∀ l ∈ backwater.links, l.source ≠ "m" := by decide
    rintro ⟨b, -, hwalk⟩
    cases hwalk with
    | link hl hsource => exact hnone _ hl hsource
    | step hl hsource => exact hnone _ hl hsource
  · intro hwarned
    refine hb.1 hwarned (Or.inr ?_)
    have hlast : backwater.Walk (fun id => backwater.HasActionable id ∨ backwater.HasBranch id)
        "c" "b" := .link (List.mem_of_getElem? (i := 1) rfl) rfl rfl
    exact .step (List.mem_of_getElem? (i := 0) rfl) rfl (Or.inr (by decide +kernel)) hlast

end Flow

end CallFlow
