import CallFlow.Proofs.WithoutDangling
import Mathlib.Data.List.Find

/-!
# Dangling Links Are Inert

Connections with an end that no step declares are lost. Lost connections take no number and leave
nothing but a record, so the edges that are made are the same without them, and have the same ids.

One pass looks at links as they are written, whatever their ends: the choice of the entry. It asks
where the first link of the first trigger leads, and which steps no link leads to. There a dangling
link may count, and then the edge to the entry differs; everything else does not.

## Sections

1. Lost connections leave no trace
2. The entry without dangling links
3. Compiled flows
-/

namespace CallFlow

open Attempt

/-! ## §1 Lost connections leave no trace -/

namespace Assembly

/-- The assemblies differ at most in what they have dropped. -/
def Agrees (a b : Assembly) : Prop := a = { b with dropped := a.dropped }

variable {a b : Assembly}

theorem Agrees.refl (a : Assembly) : a.Agrees a := rfl

theorem Agrees.lost? (h : a.Agrees b) : a.lost? = b.lost? :=
  lost?_congr (by rw [h])

/-- What has been dropped before has no effect on a connection. -/
theorem Agrees.place (h : a.Agrees b) (c : Flow.Connection) : (a.place c).Agrees (b.place c) := by
  unfold Agrees Assembly.place
  -- Both assemblies have the same nodes, so both make the connection or both lose it.
  rw [h.lost?]
  cases b.lost? c with
  | some d => rw [h]
  | none =>
    rw [h]
    rfl

/-- A lost connection is recorded and has no other effect. -/
theorem Agrees.place_left (h : a.Agrees b) {c : Flow.Connection} (hlost : a.lost? c ≠ none) :
    (a.place c).Agrees b := by
  obtain ⟨d, hd⟩ := Option.ne_none_iff_exists'.1 hlost
  simp only [Agrees, Assembly.place, hd]
  rw [h]

/-- **Connections that are lost may be left out of a run** without any effect but on the records. -/
theorem Agrees.placeAll (h : a.Agrees b) {keep : Flow.Connection → Bool}
    {cs : List Flow.Connection} (hlost : ∀ c ∈ cs, keep c = false → a.lost? c ≠ none) :
    (a.placeAll cs).Agrees (b.placeAll (cs.filter keep)) := by
  induction cs generalizing a b with
  | nil => exact h
  | cons c rest ih =>
    -- Whatever becomes of the first connection, later ones find the same nodes.
    have hrest : ∀ c' ∈ rest, keep c' = false → (a.place c).lost? c' ≠ none := by
      intro c' hc' hkeep
      rw [lost?_place]
      exact hlost c' (List.mem_cons_of_mem _ hc') hkeep
    cases hkeep : keep c with
    | true =>
      rw [List.filter_cons_of_pos hkeep]
      exact ih (h.place c) hrest
    | false =>
      rw [List.filter_cons_of_neg (by simp [hkeep])]
      exact ih (h.place_left (hlost c (List.mem_cons_self ..) hkeep)) hrest

end Assembly

/-- Two nodes that agree apart from their edges differ in their lists only. -/
theorem Node.eq_of_bare {n n' : Node} (h : n'.bare = n.bare) :
    n = { n' with edgeOrder := n.edgeOrder } := by
  cases n
  cases n'
  simp only [bare, mk.injEq, true_and] at h
  simp [h.1, h.2]

namespace Flow

variable {f : Flow}

/-! ## §2 The entry without dangling links -/

/-- Leaving items out does not matter to a search whose first find is kept. -/
theorem find?_filter_of_first {α : Type} {keep p : α → Bool} {items : List α}
    (h : ∀ x, items.find? p = some x → keep x = true) :
    (items.filter keep).find? p = items.find? p := by
  induction items with
  | nil => rfl
  | cons x rest ih =>
    cases hp : p x with
    | true =>
      -- The search ends here, with and without the filter.
      have hkeep : keep x = true := h x (by simp [hp])
      simp [hkeep, hp]
    | false =>
      have hrest := ih fun y hy => h y (by simpa [hp] using hy)
      cases hkeep : keep x <;> simp [hkeep, hp, hrest]

/-- The choice of the entry is settled without dangling links: the first link of the first trigger
leads to a declared id, and a step that links lead to is led to from a declared id. -/
structure EntrySettled (f : Flow) : Prop where
  first : ∀ trigger l, f.firstTrigger? = some trigger →
    f.links.find? (fun l => l.source = trigger.id) = some l → f.declares l.target = true
  led : ∀ l ∈ f.links, f.HasActionable l.target →
    ∃ l' ∈ f.links, l'.target = l.target ∧ f.declares l'.source = true

theorem triggered?_withoutDangling
    (hfirst : ∀ trigger l, f.firstTrigger? = some trigger →
      f.links.find? (fun l => l.source = trigger.id) = some l → f.declares l.target = true) :
    f.withoutDangling.triggered? = f.triggered? := by
  have hsame : f.withoutDangling.firstTrigger? = f.firstTrigger? := rfl
  unfold triggered?
  rw [hsame]
  cases htrigger : f.firstTrigger? with
  | none => rfl
  | some trigger =>
    have hlink : f.withoutDangling.links.find? (fun l => l.source = trigger.id) =
        f.links.find? fun l => l.source = trigger.id := by
      apply find?_filter_of_first
      intro l hl
      -- The trigger is declared and so is the target, so the link is kept.
      have hsource : l.source = trigger.id := by simpa using List.find?_some hl
      have hmem : trigger ∈ f.steps := List.mem_of_find?_eq_some htrigger
      rw [keeps, hfirst trigger l htrigger hl, declares_of_mem hmem hsource.symm, Bool.and_self]
    show (f.withoutDangling.links.find? _).bind _ = (f.links.find? _).bind _
    rw [hlink]
    rfl

theorem root?_withoutDangling
    (hled : ∀ l ∈ f.links, f.HasActionable l.target →
      ∃ l' ∈ f.links, l'.target = l.target ∧ f.declares l'.source = true) :
    f.withoutDangling.root? = f.root? := by
  apply List.find?_congr
  intro t ht
  cases hactionable : t.isActionable with
  | false => rfl
  | true =>
    have hid : f.HasActionable t.id := ⟨t, ht, rfl, hactionable⟩
    have hany : (f.withoutDangling.links.any fun l => l.target = t.id) =
        f.links.any fun l => l.target = t.id := by
      rw [Bool.eq_iff_iff, List.any_eq_true, List.any_eq_true]
      constructor
      · intro h
        obtain ⟨l, hl, htarget⟩ := h
        exact ⟨l, (mem_withoutDangling.1 hl).1, htarget⟩
      · intro h
        obtain ⟨l, hl, htarget⟩ := h
        have htarget := of_decide_eq_true htarget
        -- Another link leads there from a declared step, and that one is kept.
        obtain ⟨l', hl', hsame, hsource⟩ := hled l hl (htarget ▸ hid)
        refine ⟨l', mem_withoutDangling.2 ⟨hl', ?_⟩, decide_eq_true (hsame.trans htarget)⟩
        rw [keeps, hsource, hsame, htarget, declares_of_hasActionable hid, Bool.and_self]
    show (true && !_) = (true && !_)
    rw [hany]

/-- **The entry is the same** if a trigger leads to it, or if its choice is settled without dangling
links. -/
theorem chooseEntry_withoutDangling (h : f.triggered?.isSome = true ∨ f.EntrySettled) :
    f.withoutDangling.chooseEntry.1 = f.chooseEntry.1 := by
  have hfirstActionable : f.withoutDangling.firstActionable? = f.firstActionable? := rfl
  rw [chooseEntry_fst, chooseEntry_fst, hfirstActionable]
  rcases h with htriggered | hsettled
  · -- The first link leads to a step that is found, so it is kept.
    have hsame : f.withoutDangling.triggered? = f.triggered? := by
      refine triggered?_withoutDangling fun trigger l htrigger hl => ?_
      simp only [triggered?, htrigger, hl, Option.bind_eq_bind, Option.bind_some] at htriggered
      obtain ⟨t, ht⟩ := Option.isSome_iff_exists.1 htriggered
      rw [declares, (Option.filter_eq_some_iff.1 ht).1, Option.isSome_some]
    obtain ⟨t, ht⟩ := Option.isSome_iff_exists.1 htriggered
    simp [hsame, ht]
  · rw [triggered?_withoutDangling hsettled.first, root?_withoutDangling hsettled.led]

/-! ## §3 Compiled flows -/

/-- Links connect declared ids only: none is attached to a start node whose id no step has. -/
def ConnectsDeclared (f : Flow) (startId : String) : Prop :=
  ∀ a b, f.Connects startId a b → f.declares a = true ∧ f.declares b = true

theorem connectsDeclared_of_keepsClear {startId : String} (hclear : f.KeepsClear startId) :
    f.ConnectsDeclared startId := by
  intro a b h
  obtain ⟨ha, hb⟩ := h.hasActionable hclear
  exact ⟨declares_of_hasActionable ha, declares_of_hasActionable hb⟩

theorem CompilesTo.unique {compiled compiled' : List Compiled} (h : f.CompilesTo compiled)
    (h' : f.CompilesTo compiled') : compiled = compiled' := by
  refine List.right_unique_forall₂' ?_ h h'
  intro t c c' hc hc'
  exact Gives.unique hc hc'

namespace Passes

variable (p : Passes f) (p' : Passes f.withoutDangling) (s : Settings)

/-- Steps are compiled without a look at links. -/
theorem compiled_withoutDangling : p'.compiled = p.compiled :=
  CompilesTo.unique (f := f) p'.compiles p.compiles

theorem held_withoutDangling : p'.held s = p.held s := by
  unfold held
  rw [p.compiled_withoutDangling p']
  rfl

theorem joins_withoutDangling :
    (p'.result s).workflow.joins = (p.result s).workflow.joins := by
  have hnames : Table.names (p'.result s).workflow.nodes =
      Table.names (p.result s).workflow.nodes := by
    rw [names_nodes_result, names_nodes_result, p.held_withoutDangling p' s]
  funext c
  simp only [Workflow.joins, Table.has_congr hnames]

variable {s}

theorem declaresEnds_of_joins (hstart : f.ConnectsDeclared s.startNodeId) {c : Connection}
    (hc : c ∈ p.plan) (hjoins : (p.result s).workflow.joins c = true) :
    f.declaresEnds c = true := by
  have hmade : Flow.Connects f s.startNodeId c.source c.target :=
    (p.exists_made_iff s).1 (exists_madeEntry.2 ⟨c, List.mem_filter.2 ⟨hc, hjoins⟩, rfl, rfl⟩)
  exact Bool.and_eq_true_iff.2 (hstart _ _ hmade)

/-- With the same entry, the whole workflow is the same. -/
theorem workflow_withoutDangling (hstart : f.ConnectsDeclared s.startNodeId)
    (hentry : p'.entry.stepId = p.entry.stepId) :
    (p'.result s).workflow = (p.result s).workflow := by
  have hentered : p'.entered s = p.entered s := by
    rw [entered, entered, hentry, p.held_withoutDangling p' s]
  -- A connection with an end that is not declared would have joined two nodes otherwise.
  have hlost : ∀ c ∈ p.plan, f.declaresEnds c = false → (p.entered s).lost? c ≠ none := by
    intro c hc hends hnone
    rw [p.declaresEnds_of_joins hstart hc ((p.lost?_entered s c).1 hnone)] at hends
    cases hends
  have hagrees : ((p.entered s).placeAll p.plan).Agrees ((p'.entered s).placeAll p'.plan) := by
    rw [plan_withoutDangling p p', hentered]
    exact (Assembly.Agrees.refl _).placeAll hlost
  show ((p'.entered s).placeAll p'.plan).workflow = ((p.entered s).placeAll p.plan).workflow
  rw [hagrees]
  rfl

/-- Whatever the entry is, the same connections are made. -/
theorem made_withoutDangling (hstart : f.ConnectsDeclared s.startNodeId) :
    p'.plan.filter (p'.result s).workflow.joins = p.plan.filter (p.result s).workflow.joins := by
  rw [p.joins_withoutDangling p' s, plan_withoutDangling p p', List.filter_filter]
  apply List.filter_congr
  intro c hc
  -- What joins two nodes has declared ends, so the second test is idle.
  cases hjoins : (p.result s).workflow.joins c with
  | false => rw [Bool.false_and]
  | true => rw [p.declaresEnds_of_joins hstart hc hjoins, Bool.and_self]

/-- A node besides the start lists the made edges that leave it. -/
theorem idsFrom_result (hs : ¬ Assembly.LooksGenerated s.startEdgeId)
    (hne : s.startEdgeId.isEmpty = false) {id : String} (hid : id ≠ s.startNodeId) :
    (p.result s).workflow.idsFrom id = Table.names ((Assembly.madeEntries 0
      (p.plan.filter (p.result s).workflow.joins)).filter fun e => e.2.source = id) := by
  -- The first edge leaves the start.
  have hfirst : ((p.entered s).edges.filter fun e => e.2.source = id) = [] := by
    rw [List.filter_eq_nil_iff]
    intro e he
    rw [(p.of_mem_entered s hne he).2]
    simpa using hid.symm
  rw [Workflow.idsFrom, p.edges_result s hs hne, List.filter_append, hfirst, List.nil_append]

/-- Every node is one that has been held, and lists the edges that leave it. -/
theorem get?_node_result (hs : ¬ Assembly.LooksGenerated s.startEdgeId) (id : String) :
    Table.get? (p.result s).workflow.nodes id = (Table.get? (p.held s).nodes id).map fun n =>
      { n with edgeOrder := (p.result s).workflow.idsFrom id } := by
  have hbare := p.bare_result s id
  cases hn : Table.get? (p.result s).workflow.nodes id with
  | none =>
    rw [hn, Option.map_none, eq_comm, Option.map_eq_none_iff] at hbare
    rw [hbare, Option.map_none]
  | some n =>
    rw [hn, Option.map_some, eq_comm, Option.map_eq_some_iff] at hbare
    obtain ⟨n', hn', hsame⟩ := hbare
    -- By integrity the list of the node is that of its edges.
    have hlisted := (p.intact_result s hs).listed _ (Table.mem_of_get?_eq_some hn)
    rw [hn', Option.map_some, ← hlisted, Node.eq_of_bare hsame]

end Passes

/-- **Dangling links are inert**, as long as none is attached to the start node. The facts are the
same without them. So are all nodes besides the start and all edges besides the first, with their
ids, their order and their conditions. If the entry is the same, the whole workflow is; and the
entry is the same if a trigger leads to it, or if its choice is settled without dangling links. -/
theorem dangling_inert (f : Flow) (s : Settings) (hstart : f.ConnectsDeclared s.startNodeId)
    {c c' : Compilation} (h : f.Returns s c) (h' : f.withoutDangling.Returns s c') :
    c'.facts = c.facts ∧
    (¬ Assembly.LooksGenerated s.startEdgeId → s.startEdgeId.isEmpty = false →
      Table.names c'.workflow.nodes = Table.names c.workflow.nodes ∧
      (∀ id, id ≠ s.startNodeId →
        Table.get? c'.workflow.nodes id = Table.get? c.workflow.nodes id) ∧
      (c'.workflow.edges.filter fun e => e.1 ≠ s.startEdgeId) =
        c.workflow.edges.filter fun e => e.1 ≠ s.startEdgeId) ∧
    (c'.entryId = c.entryId → c'.workflow = c.workflow) ∧
    (f.triggered?.isSome = true ∨ f.EntrySettled →
      c'.entryId = c.entryId ∧ c'.firstMessage = c.firstMessage) := by
  obtain ⟨p, hp⟩ := h.passes
  obtain ⟨p', hp'⟩ := h'.passes
  have hworkflow : c.workflow = (p.result s).workflow := by rw [hp]
  have hworkflow' : c'.workflow = (p'.result s).workflow := by rw [hp']
  have hentry : c.entryId = p.entry.stepId := by rw [hp]; rfl
  have hentry' : c'.entryId = p'.entry.stepId := by rw [hp']; rfl
  refine ⟨?_, fun hs hne => ⟨?_, fun id hid => ?_, ?_⟩, fun hsame => ?_, fun hsettled => ?_⟩
  -- Facts come from the steps.
  · rw [hp, hp']
    show p'.compiled.foldl Facts.absorb {} = p.compiled.foldl Facts.absorb {}
    rw [p.compiled_withoutDangling p']
  -- Nodes and edges come from the steps and from the connections that are made.
  · rw [hworkflow, hworkflow', p.names_nodes_result, p'.names_nodes_result,
      p.held_withoutDangling p' s]
  · rw [hworkflow, hworkflow', p.get?_node_result hs, p'.get?_node_result hs,
      p.idsFrom_result hs hne hid, p'.idsFrom_result hs hne hid, p.held_withoutDangling p' s,
      p.made_withoutDangling p' hstart]
  · rw [hworkflow, hworkflow', p.later_edges_result s hs hne, p'.later_edges_result s hs hne,
      p.made_withoutDangling p' hstart]
  -- The edge to the entry is all that is left.
  · rw [hentry, hentry'] at hsame
    rw [hworkflow, hworkflow', p.workflow_withoutDangling p' hstart hsame]
  · have hchoice := chooseEntry_withoutDangling hsettled
    obtain ⟨hstep, hmessage⟩ := of_entry p.entry_gives
    obtain ⟨hstep', hmessage'⟩ := of_entry p'.entry_gives
    rw [hentry, hentry', Entry.stepId, Entry.stepId, hstep, hstep', hchoice]
    refine ⟨rfl, ?_⟩
    rw [hp, hp']
    show p'.entry.firstMessage = p.entry.firstMessage
    rw [hmessage, hmessage', hchoice]

/-- The crossroads have a way out that leads nowhere. Their workflow is the same without it. -/
theorem dangling_inert_crossroads :
    crossroads.ConnectsDeclared Workflow.defaultStartId ∧
      crossroads.withoutDangling.links.length < crossroads.links.length ∧
      ∃ c c', crossroads.Returns {} c ∧ crossroads.withoutDangling.Returns {} c' ∧
        c'.workflow = c.workflow := by
  have hstart : crossroads.ConnectsDeclared Workflow.defaultStartId :=
    connectsDeclared_of_keepsClear ⟨by decide, by decide⟩
  obtain ⟨c, hgives⟩ := gives_of_succeeds (a := crossroads.compile {}) (by decide +kernel)
  obtain ⟨c', hgives'⟩ :=
    gives_of_succeeds (a := crossroads.withoutDangling.compile {}) (by decide +kernel)
  obtain ⟨-, -, hsame, hentry⟩ :=
    dangling_inert crossroads {} hstart (.plain hgives) (.plain hgives')
  have htriggered : crossroads.triggered?.isSome = true := by decide +kernel
  exact ⟨hstart, by decide +kernel, c, c', .plain hgives, .plain hgives',
    hsame (hentry (Or.inl htriggered)).1⟩

/-- A flow with a link from nowhere to its first step. -/
def haunted : Flow where
  steps := [{ id := "a", type := some "message" }, { id := "b", type := some "message" }]
  links := [{ id := "e1", source := "ghost", target := "a" }]

/-- The link from nowhere moves the entry to the second step. -/
theorem haunted_differs :
    haunted.KeepsClear Workflow.defaultStartId ∧
      ∃ c c', haunted.Returns {} c ∧ haunted.withoutDangling.Returns {} c' ∧
        c'.workflow ≠ c.workflow := by
  obtain ⟨c, hgives⟩ := gives_of_succeeds (a := haunted.compile {}) (by decide +kernel)
  obtain ⟨c', hgives'⟩ :=
    gives_of_succeeds (a := haunted.withoutDangling.compile {}) (by decide +kernel)
  have htargets : (haunted.compile {}).outcome.map
      (fun c => c.workflow.edges.map fun e => e.2.target) = .ok ["b"] := by
    decide +kernel
  have htargets' : (haunted.withoutDangling.compile {}).outcome.map
      (fun c => c.workflow.edges.map fun e => e.2.target) = .ok ["a"] := by
    decide +kernel
  rw [hgives] at htargets
  rw [hgives'] at htargets'
  refine ⟨⟨by decide, by decide⟩, c, c', .plain hgives, .plain hgives', fun hsame => ?_⟩
  have hfirst : (c'.workflow.edges.map fun e => e.2.target) = ["a"] := Except.ok.inj htargets'
  have hsecond : (c.workflow.edges.map fun e => e.2.target) = ["b"] := Except.ok.inj htargets
  rw [hsame, hsecond] at hfirst
  exact absurd hfirst (by decide)

end Flow

end CallFlow
