import CallFlow.Proofs.Chains
import CallFlow.Proofs.Plan

/-!
# Branches Are Eliminated

The compiled workflow has no branches, and yet it leads from step to step as the authored flow
does: between two steps with nodes there is an edge just in case a walk leads from one to the
other through branches only.

A walk becomes an edge in four stages, and an edge comes from a walk by the same stages: the
walk has a chain that leads to the same place, the chain is among the connections that a link
calls for, the connection is in the plan, and both its ends are nodes.

## Sections

1. Which steps have nodes
2. Which connections are called for
3. Which edges are made
4. Walks and edges
-/

namespace CallFlow

open Attempt

/-! ## §1 Which steps have nodes -/

namespace Assembly

/-- The node of a compiled step with a new id goes to the end, if it has one. -/
theorem names_hold {a : Assembly} {s : Step} {c : Compiled} (h : s.compile.Gives c)
    (hstart : s.id ≠ a.startNodeId) (hnew : s.id ∉ Table.names a.nodes) :
    Table.names (a.hold s.id c).nodes =
      Table.names a.nodes ++ ([s].filter Step.isActionable).map Step.id := by
  cases hs : s.isActionable with
  | true =>
    obtain ⟨kind, -, hnode⟩ := Step.compile_fresh h hs
    simp [hold, hnode, hstart, hs, Table.names_set, hnew]
  | false =>
    rw [Step.compile_structural h hs]
    simp [hold, hs]

/-- The nodes of compiled steps with new ids go to the end, in order. -/
theorem names_holdAll {steps : List Step} {compiled : List Compiled} {a : Assembly}
    (h : List.Forall₂ (fun s c => s.compile.Gives c) steps compiled)
    (hstart : ∀ s ∈ steps, s.id ≠ a.startNodeId)
    (hnew : (Table.names a.nodes ++ steps.map Step.id).Nodup) :
    Table.names (a.holdAll (steps.zip compiled)).nodes =
      Table.names a.nodes ++ (steps.filter Step.isActionable).map Step.id := by
  induction h generalizing a with
  | nil => simp [holdAll]
  | @cons s c rest more hs _ ih =>
    have hmem : s.id ∉ Table.names a.nodes := fun hmem =>
      (List.nodup_append.1 hnew).2.2 _ hmem _ (List.mem_cons_self ..) rfl
    have hfirst := names_hold hs (hstart s (List.mem_cons_self ..)) hmem
    have hframe : (a.hold s.id c).startNodeId = a.startNodeId := by rw [hold_frame]
    -- Whether or not the first step has a node, no later one has its id.
    have hlater : (Table.names (a.hold s.id c).nodes ++ rest.map Step.id).Nodup := by
      refine hnew.sublist ?_
      rw [hfirst, List.append_assoc]
      refine List.Sublist.append_left ?_ _
      exact List.Sublist.append (List.filter_sublist.map _) (List.Sublist.refl _)
    have hrest := ih (a := a.hold s.id c)
      (fun t ht => hframe ▸ hstart t (List.mem_cons_of_mem _ ht)) hlater
    show Table.names ((a.hold s.id c).holdAll (rest.zip more)).nodes = _
    rw [hrest, hfirst, List.append_assoc, ← List.map_append, ← List.filter_append,
      List.singleton_append]

end Assembly

namespace Flow

variable {f : Flow}

namespace Passes

variable (p : Passes f) (s : Settings)

/-- The nodes of a result: the start, and one for every step that has a node. -/
theorem names_result (hf : f.DistinctIds) (hclear : f.KeepsClear s.startNodeId) :
    Table.names (p.result s).workflow.nodes =
      s.startNodeId :: (f.steps.filter Step.isActionable).map Step.id := by
  rw [names_nodes_result]
  refine Assembly.names_holdAll p.compiles hclear.steps ?_
  show (s.startNodeId :: f.steps.map Step.id).Nodup
  refine List.nodup_cons.2 ⟨fun hmem => ?_, hf⟩
  obtain ⟨t, ht, htid⟩ := List.mem_map.1 hmem
  exact hclear.steps t ht htid

/-- What is a node, apart from the start, is a step that has one. -/
theorem has_node_result (hf : f.DistinctIds) (hclear : f.KeepsClear s.startNodeId) {id : String}
    (hid : id ≠ s.startNodeId) :
    Table.has (p.result s).workflow.nodes id = true ↔ f.HasActionable id := by
  rw [Table.has_iff_mem_names, p.names_result s hf hclear, List.mem_cons, or_iff_right hid]
  simp only [List.mem_map, List.mem_filter, HasActionable, and_assoc]
  refine exists_congr fun t => and_congr_right fun _ => and_comm

/-- The nodes that are not of the start kind are those of the steps that have one. -/
theorem names_others_result (hf : f.DistinctIds) (hclear : f.KeepsClear s.startNodeId)
    (hs : ¬ Assembly.LooksGenerated s.startEdgeId) :
    Table.names ((p.result s).workflow.nodes.filter fun n => !n.2.kind.isStart) =
      (f.steps.filter Step.isActionable).map Step.id := by
  -- By integrity the start node alone is of the start kind.
  have hkind : (p.result s).workflow.nodes.filter (fun n => !n.2.kind.isStart) =
      (p.result s).workflow.nodes.filter fun n => n.1 ≠ s.startNodeId := by
    refine List.filter_congr fun n hn => ?_
    have hiff := (p.intact_result s hs).isStart_iff n hn
    rw [Bool.eq_iff_iff, Bool.not_eq_true', ← Bool.not_eq_true, hiff, decide_eq_true_iff]
  have hname : Table.names ((p.result s).workflow.nodes.filter fun n => n.1 ≠ s.startNodeId) =
      (Table.names (p.result s).workflow.nodes).filter fun id => id ≠ s.startNodeId := by
    rw [Table.names, Table.names, List.filter_map]
    rfl
  have hothers : ∀ id ∈ (f.steps.filter Step.isActionable).map Step.id,
      decide (id ≠ s.startNodeId) = true := by
    intro id hid
    obtain ⟨t, ht, rfl⟩ := List.mem_map.1 hid
    exact decide_eq_true (hclear.steps t (List.mem_filter.1 ht).1)
  rw [hkind, hname, p.names_result s hf hclear, List.filter_cons_of_neg (by simp),
    List.filter_eq_self.2 hothers]

end Passes

/-! ## §2 Which connections are called for -/

theorem chains_of_expand {l : Link} (hf : f.DistinctIds) (htrigger : ¬ f.HasTrigger l.source)
    (hsource : ¬ f.HasBranch l.source) (htarget : f.HasBranch l.target)
    {edges : List ExpandedEdge} (h : (f.expand l).Gives edges) :
    ∃ chains, (f.chainsFrom (f.branchIds.erase l.target) l.target).Gives chains ∧
      edges = chains.map (Chain.edge l) := by
  refine exists_chains_of_expand ?_ hsource htarget h
  rw [Bool.eq_false_iff, ne_eq, hf.isTrigger_iff]
  exact htrigger

/-- **What a link calls for follows a walk.** -/
theorem Calls.walk (hf : f.DistinctIds) {l : Link} (hl : l ∈ f.links) {cs : List Connection}
    (h : f.Calls l cs) {c : Connection} (hc : c ∈ cs) :
    c.source = l.source ∧ f.Walk f.HasBranch c.source c.target := by
  cases h with
  | atTrigger => simp at hc
  | leavesBranch => simp at hc
  | direct =>
    obtain rfl := List.mem_singleton.1 hc
    exact ⟨rfl, .link hl rfl rfl⟩
  | entersBranch htrigger hsource htarget hexpand =>
    obtain ⟨chains, hchains, rfl⟩ :=
      chains_of_expand hf (fun h => htrigger (Or.inl h)) hsource htarget hexpand
    obtain ⟨e, he, rfl⟩ := List.mem_map.1 hc
    obtain ⟨chain, hchain, rfl⟩ := List.mem_map.1 he
    exact ⟨rfl, .step hl rfl htarget (walk_of_mem_chainsFrom hchains hchain)⟩

/-- **A walk out of a branch is called for** by the links that enter the branch from elsewhere. -/
theorem Calls.exists_of_walk (hf : f.DistinctIds) {l : Link} (hl : l ∈ f.links)
    {cs : List Connection} (h : f.Calls l cs) (htrigger : ¬ f.HasTrigger l.source)
    (hsource : ¬ f.HasBranch l.source) (hentered : f.HasBranch l.target) {target : String}
    (htarget : ¬ f.HasBranch target) (w : f.Walk f.HasBranch l.target target) :
    ∃ c ∈ cs, c.source = l.source ∧ c.target = target := by
  cases h with
  | atTrigger hskip =>
    exact absurd hskip (not_or.2 ⟨htrigger, hf.not_hasTrigger_of_branch hentered⟩)
  | leavesBranch hbranch => exact absurd hbranch hsource
  | direct _ _ hdirect => exact absurd hentered hdirect
  | entersBranch _ _ _ hexpand =>
    obtain ⟨chains, hchains, rfl⟩ := chains_of_expand hf htrigger hsource hentered hexpand
    -- All branches but the entered one are left, and the walk need not come back to that one.
    have hrest := w.through_branchIds
    obtain ⟨chain, hchain, rfl⟩ :=
      exists_chain_of_walk hasBranch_of_mem_erase htarget ⟨l, hl, rfl⟩ hrest hchains
    exact ⟨_, List.mem_map_of_mem (List.mem_map_of_mem hchain), rfl, rfl⟩

/-- **A walk between steps with nodes is called for** by the link that it begins with. -/
theorem CallsFor.exists_of_walk (hf : f.DistinctIds) {called : List (List Connection)}
    (h : f.CallsFor called) {a b : String} (ha : f.HasActionable a) (hb : f.HasActionable b)
    (w : f.Walk f.HasBranch a b) : ∃ c ∈ called.flatten, c.source = a ∧ c.target = b := by
  have hab : ¬ f.HasBranch a := hf.not_hasBranch ha
  have hbb : ¬ f.HasBranch b := hf.not_hasBranch hb
  cases w with
  | @link _ _ l hl hsource htarget =>
    subst hsource htarget
    obtain ⟨cs, hcs, hgives⟩ := exists_of_mem_left h hl
    -- Both ends have nodes, so the link stands for itself.
    cases calls_of_gives hf hgives with
    | atTrigger htrigger =>
      exact absurd htrigger (not_or.2 ⟨hf.not_hasTrigger ha, hf.not_hasTrigger hb⟩)
    | leavesBranch hbranch => exact absurd hbranch hab
    | entersBranch _ _ hbranch => exact absurd hbranch hbb
    | direct =>
      exact ⟨_, List.mem_flatten.2 ⟨_, hcs, List.mem_singleton_self _⟩, rfl, rfl⟩
  | @step _ _ l hl hsource hthrough rest =>
    subst hsource
    obtain ⟨cs, hcs, hgives⟩ := exists_of_mem_left h hl
    -- The link enters a branch from a step with a node, so it is expanded.
    obtain ⟨c, hc, hends⟩ := (calls_of_gives hf hgives).exists_of_walk hf hl
      (hf.not_hasTrigger ha) hab hthrough hbb rest
    exact ⟨c, List.mem_flatten.2 ⟨cs, hcs, hc⟩, hends⟩

/-! ## §3 Which edges are made -/

/-- Made edges join what their connections join. -/
theorem exists_madeEntry {cs : List Connection} {n : Nat} {a b : String} :
    (∃ e ∈ Assembly.madeEntries n cs, e.2.source = a ∧ e.2.target = b) ↔
      ∃ c ∈ cs, c.source = a ∧ c.target = b := by
  induction cs generalizing n with
  | nil => simp [Assembly.madeEntries]
  | cons c rest ih =>
    have hcons : Assembly.madeEntries n (c :: rest) =
        Assembly.madeEntry c (n + 1) :: Assembly.madeEntries (n + 1) rest := rfl
    rw [hcons, List.exists_mem_cons_iff, List.exists_mem_cons_iff, ih]
    rfl

namespace Passes

variable (p : Passes f) (s : Settings)

/-- A connection of the plan follows a walk that begins with a link. -/
theorem walk_of_mem_plan (hf : f.DistinctIds) {c : Connection} (hc : c ∈ p.plan) :
    (∃ l ∈ f.links, l.source = c.source) ∧ f.Walk f.HasBranch c.source c.target := by
  obtain ⟨cs, hcs, hmem⟩ := List.mem_flatten.1 hc
  obtain ⟨l, hl, hgives⟩ := exists_of_mem_right p.calls hcs
  obtain ⟨hsource, hwalk⟩ := (calls_of_gives hf hgives).walk hf hl hmem
  exact ⟨⟨l, hl, hsource.symm⟩, hwalk⟩

/-- A connection of the plan is made just in case both its ends are steps with nodes. -/
theorem joins_of_mem_plan (hf : f.DistinctIds) (hclear : f.KeepsClear s.startNodeId)
    {c : Connection} (hc : c ∈ p.plan) :
    (p.result s).workflow.joins c = true ↔
      f.HasActionable c.source ∧ f.HasActionable c.target := by
  -- Both ends are ends of links, so neither is the start.
  obtain ⟨⟨l, hl, hsource⟩, hwalk⟩ := p.walk_of_mem_plan hf hc
  obtain ⟨l', hl', htarget⟩ := hwalk.exists_last
  rw [Workflow.joins, Bool.and_eq_true,
    p.has_node_result s hf hclear (hsource ▸ (hclear.links l hl).1),
    p.has_node_result s hf hclear (htarget ▸ (hclear.links l' hl').2)]

/-- Made edges lead from one step with a node to another just in case a walk does. -/
theorem exists_made_iff_walk (hf : f.DistinctIds) (hclear : f.KeepsClear s.startNodeId)
    {a b : String} (ha : f.HasActionable a) (hb : f.HasActionable b) :
    (∃ e ∈ Assembly.madeEntries 0 (p.plan.filter (p.result s).workflow.joins),
      e.2.source = a ∧ e.2.target = b) ↔ f.Walk f.HasBranch a b := by
  rw [exists_madeEntry]
  constructor
  · rintro ⟨c, hc, rfl, rfl⟩
    exact (p.walk_of_mem_plan hf (List.mem_filter.1 hc).1).2
  · intro w
    obtain ⟨c, hc, rfl, rfl⟩ := p.calls.exists_of_walk hf ha hb w
    have hjoins := (p.joins_of_mem_plan s hf hclear hc).2 ⟨ha, hb⟩
    exact ⟨c, List.mem_filter.2 ⟨hc, hjoins⟩, rfl, rfl⟩

/-- Made edges join steps with nodes. -/
theorem hasActionable_of_mem_made (hf : f.DistinctIds) (hclear : f.KeepsClear s.startNodeId)
    {e : String × Edge}
    (he : e ∈ Assembly.madeEntries 0 (p.plan.filter (p.result s).workflow.joins)) :
    f.HasActionable e.2.source ∧ f.HasActionable e.2.target := by
  obtain ⟨c, hc, hsource, htarget⟩ := exists_madeEntry.1 ⟨e, he, rfl, rfl⟩
  obtain ⟨hplan, hjoins⟩ := List.mem_filter.1 hc
  rw [← hsource, ← htarget]
  exact (p.joins_of_mem_plan s hf hclear hplan).1 hjoins

end Passes

/-! ## §4 Walks and edges -/

/-- **Eliminating branches preserves the authored flow.** The nodes besides the start are those of
the steps that have one; between them there is an edge just in case a walk through branches leads
from one to the other; and edges besides the first join no others. -/
theorem branches_eliminated (f : Flow) (hf : f.DistinctIds)
    (hclear : f.KeepsClear Workflow.defaultStartId) {c : Compilation} (h : f.Returns {} c) :
    Table.names (c.workflow.nodes.filter fun n => !n.2.kind.isStart) =
      (f.steps.filter Step.isActionable).map Step.id ∧
    (∀ a b, f.HasActionable a → f.HasActionable b →
      ((∃ e ∈ c.workflow.edges, e.2.source = a ∧ e.2.target = b) ↔ f.Walk f.HasBranch a b)) ∧
    ∀ e ∈ c.workflow.edges, e.1 ≠ "start_to_entry" →
      f.HasActionable e.2.source ∧ f.HasActionable e.2.target := by
  obtain ⟨p, hp⟩ := h.passes
  have hs : ¬ Assembly.LooksGenerated ({} : Settings).startEdgeId := by decide
  have hedges : c.workflow.edges = (p.entered {}).edges ++
      Assembly.madeEntries 0 (p.plan.filter (p.result {}).workflow.joins) := by
    rw [hp, ← p.edges_result {} hs rfl]
  refine ⟨?_, fun a b ha hb => ?_, fun e he hne => ?_⟩
  · rw [hp]
    exact p.names_others_result {} hf hclear hs
  · rw [hedges, ← p.exists_made_iff_walk {} hf hclear ha hb]
    constructor
    · rintro ⟨e, he, hsource, htarget⟩
      rcases List.mem_append.1 he with hfirst | hmade
      · -- The first edge leaves the start, and the start is no step of the flow.
        have hstart : a = Workflow.defaultStartId :=
          hsource.symm.trans (p.of_mem_entered {} rfl hfirst).2
        exact absurd hstart (hclear.ne_of_hasActionable ha)
      · exact ⟨e, hmade, hsource, htarget⟩
    · rintro ⟨e, he, hends⟩
      exact ⟨e, List.mem_append_right _ he, hends⟩
  · rw [hedges] at he
    rcases List.mem_append.1 he with hfirst | hmade
    · exact absurd (p.of_mem_entered {} rfl hfirst).1 hne
    · exact p.hasActionable_of_mem_made {} hf hclear hmade

/-- On the crossroads a caller may go round between two branches before reaching the last step, and
the compiled workflow leads from the first message straight to that step. -/
theorem branches_eliminated_crossroads :
    crossroads.DistinctIds ∧ crossroads.KeepsClear Workflow.defaultStartId ∧
      ∃ c, crossroads.Returns {} c ∧
        ∃ e ∈ c.workflow.edges, e.2.source = "a" ∧ e.2.target = "b" := by
  have hids : crossroads.DistinctIds := by decide
  have hclear : crossroads.KeepsClear Workflow.defaultStartId := ⟨by decide, by decide⟩
  have ha : crossroads.HasActionable "a" := by decide +kernel
  have hb : crossroads.HasActionable "b" := by decide +kernel
  have hc : crossroads.HasBranch "c" := by decide +kernel
  have hd : crossroads.HasBranch "d" := by decide +kernel
  obtain ⟨c, hgives⟩ := gives_of_succeeds (a := crossroads.compile {}) (by decide +kernel)
  have hreturns : crossroads.Returns {} c := .plain hgives
  have hlast : crossroads.Walk crossroads.HasBranch "d" "b" :=
    .link (List.mem_of_getElem? (i := 5) rfl) rfl rfl
  have honce : crossroads.Walk crossroads.HasBranch "c" "b" :=
    .step (List.mem_of_getElem? (i := 2) rfl) rfl hd hlast
  have htwice : crossroads.Walk crossroads.HasBranch "d" "b" :=
    .step (List.mem_of_getElem? (i := 3) rfl) rfl hc honce
  have hthrice : crossroads.Walk crossroads.HasBranch "c" "b" :=
    .step (List.mem_of_getElem? (i := 2) rfl) rfl hd htwice
  have hwalk : crossroads.Walk crossroads.HasBranch "a" "b" :=
    .step (List.mem_of_getElem? (i := 1) rfl) rfl hc hthrice
  exact ⟨hids, hclear, c, hreturns,
    ((branches_eliminated crossroads hids hclear hreturns).2.1 "a" "b" ha hb).2 hwalk⟩

end Flow

end CallFlow
