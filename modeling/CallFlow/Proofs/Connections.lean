import CallFlow.Proofs.Dangling
import CallFlow.Proofs.EntryChoice

/-!
# Which Ids Are Connected

A flow may declare an id several times and give one to a step that the start node has already.
Which ids its links connect can be told all the same. A link is followed unless it touches a
trigger or leaves a branch; it lands on its target, or beyond the branches that it enters; and an
edge is made where both ends have nodes.

## Sections

1. What links stand for
2. Where links land
3. Edges of a result
-/

namespace CallFlow.Flow

open Attempt

variable {f : Flow}

/-! ## §1 What links stand for -/

/-- Links at triggers and links out of branches are not followed. -/
structure Followed (f : Flow) (l : Link) : Prop where
  source : f.isTrigger l.source = false
  target : f.isTrigger l.target = false
  branch : ¬ f.HasBranch l.source

/-- The connections that a link stands for: none, the link itself, or what comes of the chains
behind the branch that it enters. -/
inductive StandsFor (f : Flow) (l : Link) : List Connection → Prop where
  | nothing (h : ¬ f.Followed l) : StandsFor f l []
  | itself (h : f.Followed l) (htarget : ¬ f.HasBranch l.target) :
      StandsFor f l [⟨l.source, l.target, Transition.ofLink (f.step? l.source) l, l.id⟩]
  | chains (h : f.Followed l) (htarget : f.HasBranch l.target) {chains : List Chain}
      (hchains : (f.chainsFrom (f.branchIds.erase l.target) l.target).Gives chains) :
      StandsFor f l (chains.map fun chain =>
        ⟨l.source, chain.target, Hop.combine chain.hops, l.id⟩)

theorem standsFor_of_gives {l : Link} {cs : List Connection} (h : (f.connectionsOf l).Gives cs) :
    f.StandsFor l cs := by
  unfold connectionsOf at h
  split at h
  · rename_i hskip
    rw [gives_pure.1 h]
    refine .nothing fun hfollowed => ?_
    -- Each reason to pass the link over is excluded by following it.
    simp [hfollowed.source, hfollowed.target, isBranch_iff, hfollowed.branch] at hskip
  · rename_i hskip
    simp only [Bool.or_eq_true, not_or, Bool.not_eq_true, isBranch_iff] at hskip
    obtain ⟨⟨hsource, htarget⟩, hbranch⟩ := hskip
    have hfollowed : f.Followed l := ⟨hsource, htarget, hbranch⟩
    -- A link that is followed is expanded just in case it enters a branch.
    split at h
    · rename_i hentered
      obtain ⟨edges, hedges, hcs⟩ := gives_bind.1 h
      have hinto := isBranch_iff.1 hentered
      obtain ⟨chains, hchains, rfl⟩ :=
        exists_chains_of_expand hsource hfollowed.branch hinto hedges
      rw [gives_pure.1 hcs, List.map_map]
      exact .chains hfollowed hinto hchains
    · rename_i hentered
      rw [gives_pure.1 h]
      exact .itself hfollowed fun hinto => hentered (isBranch_iff.2 hinto)

/-! ## §2 Where links land -/

/-- The link leads to an id that is no branch, at once or by a walk through branches. -/
def LandsAt (f : Flow) (l : Link) (id : String) : Prop :=
  ¬ f.HasBranch id ∧
    (l.target = id ∨ f.HasBranch l.target ∧ f.Walk f.HasBranch l.target id)

namespace StandsFor

variable {l : Link} {cs : List Connection} {c : Connection}

theorem source_eq (h : f.StandsFor l cs) (hc : c ∈ cs) : c.source = l.source := by
  cases h with
  | nothing => simp at hc
  | itself => rw [List.mem_singleton.1 hc]
  | chains =>
    obtain ⟨chain, -, rfl⟩ := List.mem_map.1 hc
    rfl

/-- A connection ends where its link lands. -/
theorem landsAt (h : f.StandsFor l cs) (hc : c ∈ cs) : f.Followed l ∧ f.LandsAt l c.target := by
  cases h with
  | nothing => simp at hc
  | itself hfollowed htarget =>
    rw [List.mem_singleton.1 hc]
    exact ⟨hfollowed, htarget, Or.inl rfl⟩
  | chains hfollowed htarget hchains =>
    obtain ⟨chain, hchain, rfl⟩ := List.mem_map.1 hc
    exact ⟨hfollowed, not_hasBranch_of_mem_chainsFrom hchains hchain,
      Or.inr ⟨htarget, walk_of_mem_chainsFrom hchains hchain⟩⟩

/-- **Wherever a followed link lands, a connection ends.** -/
theorem exists_of_landsAt (h : f.StandsFor l cs) (hl : l ∈ f.links) (hfollowed : f.Followed l)
    {id : String} (hlands : f.LandsAt l id) : ∃ c ∈ cs, c.target = id := by
  obtain ⟨hid, hlands⟩ := hlands
  cases h with
  | nothing hnot => exact absurd hfollowed hnot
  | itself _ htarget =>
    rcases hlands with rfl | ⟨hbranch, -⟩
    · exact ⟨_, List.mem_singleton_self _, rfl⟩
    · exact absurd hbranch htarget
  | chains _ htarget hchains =>
    rcases hlands with rfl | ⟨-, hwalk⟩
    · exact absurd htarget hid
    · -- The walk need not come back to the branch that is entered.
      obtain ⟨chain, hchain, rfl⟩ := exists_chain_of_walk hasBranch_of_mem_erase hid
        ⟨l, hl, rfl⟩ hwalk.through_branchIds hchains
      exact ⟨_, List.mem_map_of_mem hchain, rfl⟩

end StandsFor

/-! ## §3 Edges of a result -/

/-- Some link leads from one id to another, and both ids are going to have nodes. -/
def Connects (f : Flow) (startId a b : String) : Prop :=
  (∃ l ∈ f.links, f.Followed l ∧ l.source = a ∧ f.LandsAt l b) ∧
    (a = startId ∨ f.HasActionable a) ∧ (b = startId ∨ f.HasActionable b)

/-- Only ends of links are connected. -/
theorem Connects.ends {startId a b : String} (h : f.Connects startId a b) :
    (∃ l ∈ f.links, l.source = a) ∧ ∃ l ∈ f.links, l.target = b := by
  obtain ⟨⟨l, hl, -, hsource, -, hlands⟩, -⟩ := h
  refine ⟨⟨l, hl, hsource⟩, ?_⟩
  rcases hlands with htarget | ⟨-, hwalk⟩
  · exact ⟨l, hl, htarget⟩
  · exact hwalk.exists_last

/-- In a flow that keeps clear of the start, steps with nodes are connected and nothing else. -/
theorem Connects.hasActionable {startId a b : String} (h : f.Connects startId a b)
    (hclear : f.KeepsClear startId) : f.HasActionable a ∧ f.HasActionable b := by
  obtain ⟨⟨first, hfirst, hsource⟩, last, hlast, htarget⟩ := h.ends
  obtain ⟨-, ha, hb⟩ := h
  -- Both ids are ends of links, so neither is that of the start.
  exact ⟨ha.resolve_left (hsource ▸ (hclear.links first hfirst).1),
    hb.resolve_left (htarget ▸ (hclear.links last hlast).2)⟩

theorem DistinctIds.followed (hf : f.DistinctIds) {l : Link} (hsource : f.HasActionable l.source)
    (htarget : f.HasActionable l.target ∨ f.HasBranch l.target) : f.Followed l where
  source := by
    rw [Bool.eq_false_iff, ne_eq, hf.isTrigger_iff]
    exact hf.not_hasTrigger hsource
  target := by
    rw [Bool.eq_false_iff, ne_eq, hf.isTrigger_iff]
    exact htarget.elim hf.not_hasTrigger hf.not_hasTrigger_of_branch
  branch := hf.not_hasBranch hsource

/-- In a flow without irregular ids, what is connected is two steps with a walk through branches
between them. -/
theorem connects_iff_walk (hf : f.DistinctIds) {startId : String} (hclear : f.KeepsClear startId)
    {a b : String} :
    f.Connects startId a b ↔ f.HasActionable a ∧ f.HasActionable b ∧ f.Walk f.HasBranch a b := by
  constructor
  · intro h
    obtain ⟨ha, hb⟩ := h.hasActionable hclear
    obtain ⟨⟨l, hl, -, rfl, -, hlands⟩, -⟩ := h
    refine ⟨ha, hb, ?_⟩
    rcases hlands with rfl | ⟨hbranch, hwalk⟩
    · exact .link hl rfl rfl
    · exact .step hl rfl hbranch hwalk
  · intro h
    obtain ⟨ha, hb, hwalk⟩ := h
    have hnot := hf.not_hasBranch hb
    refine ⟨?_, Or.inr ha, Or.inr hb⟩
    -- The walk begins with the link that stands for the connection.
    cases hwalk with
    | @link _ _ l hl hsource htarget =>
      subst hsource htarget
      exact ⟨l, hl, hf.followed ha (Or.inl hb), rfl, hnot, Or.inl rfl⟩
    | @step _ _ l hl hsource hbranch hrest =>
      subst hsource
      exact ⟨l, hl, hf.followed ha (Or.inr hbranch), rfl, hnot, Or.inr ⟨hbranch, hrest⟩⟩

namespace Passes

variable (p : Passes f) (s : Settings)

theorem exists_mem_plan {a b : String} :
    (∃ c ∈ p.plan, c.source = a ∧ c.target = b) ↔
      ∃ l ∈ f.links, f.Followed l ∧ l.source = a ∧ f.LandsAt l b := by
  constructor
  · rintro ⟨c, hc, rfl, rfl⟩
    obtain ⟨cs, hcs, hmem⟩ := List.mem_flatten.1 hc
    obtain ⟨l, hl, hgives⟩ := exists_of_mem_right p.calls hcs
    -- The connection is one that its link stands for.
    have hstands := standsFor_of_gives hgives
    obtain ⟨hfollowed, hlands⟩ := hstands.landsAt hmem
    exact ⟨l, hl, hfollowed, (hstands.source_eq hmem).symm, hlands⟩
  · rintro ⟨l, hl, hfollowed, rfl, hlands⟩
    obtain ⟨cs, hcs, hgives⟩ := exists_of_mem_left p.calls hl
    have hstands := standsFor_of_gives hgives
    obtain ⟨c, hc, htarget⟩ := hstands.exists_of_landsAt hl hfollowed hlands
    exact ⟨c, List.mem_flatten.2 ⟨cs, hcs, hc⟩, hstands.source_eq hc, htarget⟩

/-- **The edges that are made** join the ids that the flow connects. -/
theorem exists_made_iff {a b : String} :
    (∃ e ∈ Assembly.madeEntries 0 (p.plan.filter (p.result s).workflow.joins),
      e.2.source = a ∧ e.2.target = b) ↔ f.Connects s.startNodeId a b := by
  rw [exists_madeEntry, Connects, ← p.exists_mem_plan]
  constructor
  · rintro ⟨c, hc, rfl, rfl⟩
    obtain ⟨hplan, hjoins⟩ := List.mem_filter.1 hc
    rw [Workflow.joins, Bool.and_eq_true, p.has_result, p.has_result] at hjoins
    exact ⟨⟨c, hplan, rfl, rfl⟩, hjoins⟩
  · rintro ⟨⟨c, hplan, rfl, rfl⟩, hends⟩
    refine ⟨c, List.mem_filter.2 ⟨hplan, ?_⟩, rfl, rfl⟩
    rw [Workflow.joins, Bool.and_eq_true, p.has_result, p.has_result]
    exact hends

/-- The edge from the start to the entry, under the id of the settings. -/
def startEdge (id : String) : String × Edge :=
  (s.startEdgeId, { source := s.startNodeId, target := id, condition := .unconditional })

/-- **The first edge** leads from the start to the entry, which always has a node. -/
theorem edges_entered (hne : s.startEdgeId.isEmpty = false) :
    (p.entered s).edges = (p.entry.stepId.map (startEdge s)).toList := by
  unfold entered Assembly.enter
  cases hentry : p.entry.stepId with
  | none => exact p.held_edges s
  | some id =>
    -- The entry is a step with a node, and all nodes have been held before.
    have hid : Table.has (p.held s).nodes id = true :=
      (p.compiles.has_holdAll s id).2 (Or.inr (hasActionable_of_entry p.entry_gives hentry))
    simp only [hid, if_true, Assembly.addGiven, held_startEdgeId, hne, held_startNodeId,
      Bool.false_eq_true, if_false]
    simp [Assembly.addEdge, Table.set, startEdge]

/-- The edges of a result: that to the entry, and those that are made. -/
theorem exists_edge_iff (hs : ¬ Assembly.LooksGenerated s.startEdgeId)
    (hne : s.startEdgeId.isEmpty = false) {a b : String} :
    (∃ e ∈ (p.result s).workflow.edges, e.2.source = a ∧ e.2.target = b) ↔
      (a = s.startNodeId ∧ p.entry.stepId = some b) ∨ f.Connects s.startNodeId a b := by
  rw [p.edges_result s hs hne, ← p.exists_made_iff s, p.edges_entered s hne]
  simp only [List.mem_append, or_and_right, exists_or]
  -- What is left is that the first edge joins the start and the entry.
  apply or_congr_left
  cases p.entry.stepId with
  | none => simp
  | some id => simp [startEdge, eq_comm]

end Passes

end CallFlow.Flow
