import CallFlow.Proofs.Compiling
import CallFlow.Proofs.Declared
import CallFlow.Proofs.StepNodes

/-!
# Steps That Are Declared Twice

An id may be declared any number of times, and then its last step counts: that is the step which
is looked up, and its node replaces those of the steps before. A step without a node replaces
nothing, however. When the last step of an id is a trigger or a branch and an earlier one has a
node, the earlier node stays, and the id has a node although its step has none.

So what counts for the nodes is the last step with a node. It is the last step of its id, unless
the id is *outlived* by such an earlier node.

## Sections

1. Nodes apart from their edges
2. Which nodes are held
3. The last step of an id
4. Compiled flows
-/

namespace CallFlow

open Attempt

/-! ## §1 Nodes apart from their edges -/

/-- The node without the edges that it lists. -/
def Node.bare (n : Node) : Node := { n with edgeOrder := [] }

namespace Assembly

theorem bare_addEdge (a : Assembly) (edgeId : String) (e : Edge) (id : String) :
    (Table.get? (a.addEdge edgeId e).nodes id).map Node.bare =
      (Table.get? a.nodes id).map Node.bare := by
  rw [nodes_addEdge, Table.get?_modify]
  split
  · rw [Option.map_map]
    rfl
  · rfl

theorem bare_enter (a : Assembly) (entry : Option String) (id : String) :
    (Table.get? (a.enter entry).nodes id).map Node.bare =
      (Table.get? a.nodes id).map Node.bare := by
  rcases a.enter_cases entry with hsame | ⟨target, -, hadded⟩
  · rw [hsame]
  · rw [hadded, addGiven]
    split
    · exact bare_addEdge { a with made := a.made + 1 } ..
    · exact bare_addEdge ..

theorem bare_placeAll (a : Assembly) (cs : List Flow.Connection) (id : String) :
    (Table.get? (a.placeAll cs).nodes id).map Node.bare =
      (Table.get? a.nodes id).map Node.bare := by
  refine placeAll_invariant
    (P := fun b => (Table.get? b.nodes id).map Node.bare = (Table.get? a.nodes id).map Node.bare)
    ?_ rfl cs
  intro b c h
  rw [← h, place]
  split
  · rfl
  · exact bare_addEdge { b with made := b.made + 1 } ..

/-! ## §2 Which nodes are held -/

/-- A held node takes the place of an earlier one, unless its id is that of the start node. -/
theorem get?_hold {a : Assembly} {id : String} (hid : id ≠ a.startNodeId) (t : Step)
    (c : Compiled) :
    Table.get? (a.hold t.id c).nodes id =
      if t.id = id then c.node.or (Table.get? a.nodes id) else Table.get? a.nodes id := by
  unfold hold
  cases c.node with
  | none => simp
  | some node =>
    by_cases hstart : t.id = a.startNodeId
    · simp [hstart, Ne.symm hid]
    · simp [hstart, Table.get?_set]

/-- **The last step with a node is held**: of all compiled steps with the id, what is held is the
node of the last one that has a node, and without any it is what was held before. -/
theorem held_of_last {steps : List Step} {compiled : List Compiled} {a : Assembly} {id : String}
    (h : List.Forall₂ (fun t c => t.compile.Gives c) steps compiled)
    (hid : id ≠ a.startNodeId) :
    match steps.reverse.find? fun t => t.id = id && t.isActionable with
    | some t => ∃ c node, t.compile.Gives c ∧ c.node = some node ∧
        Table.get? (a.holdAll (steps.zip compiled)).nodes id = some node
    | none => Table.get? (a.holdAll (steps.zip compiled)).nodes id = Table.get? a.nodes id := by
  induction h generalizing a with
  | nil => rfl
  | @cons t c rest more hc _ ih =>
    have hframe : (a.hold t.id c).startNodeId = a.startNodeId := by rw [hold_frame]
    have hrest := ih (a := a.hold t.id c) (hframe ▸ hid)
    have hzip : a.holdAll ((t :: rest).zip (c :: more)) =
        (a.hold t.id c).holdAll (rest.zip more) := rfl
    rw [List.reverse_cons, List.find?_append, hzip]
    -- A later step with a node decides, and this one only if there is none.
    cases hlater : rest.reverse.find? fun t => t.id = id && t.isActionable with
    | some t' =>
      rw [hlater] at hrest
      exact hrest
    | none =>
      rw [hlater] at hrest
      dsimp only at hrest
      rw [hrest, get?_hold hid]
      by_cases hsame : t.id = id
      · cases hs : t.isActionable with
        | true =>
          obtain ⟨kind, -, hnode⟩ := Step.compile_fresh hc hs
          simp only [List.find?_singleton, hsame, hs, decide_true, Bool.and_self, if_true,
            Option.none_or, hnode, Option.some_or]
          exact ⟨c, _, hc, hnode, rfl⟩
        | false =>
          -- A structural step leaves what an earlier one has brought.
          rw [Step.compile_structural hc hs]
          simp [hs]
      · simp [hsame]

theorem get?_ofSettings {s : Settings} {id : String} (hid : id ≠ s.startNodeId) :
    Table.get? (ofSettings s).nodes id = none := by
  simp [ofSettings, begin, Table.get?, Ne.symm hid]

theorem get?_start_holdAll (s : Settings) (compiled : List (Step × Compiled)) :
    Table.get? ((ofSettings s).holdAll compiled).nodes s.startNodeId = some startNode := by
  have hstep : ∀ a : Assembly, ∀ q ∈ compiled,
      (Table.get? a.nodes s.startNodeId = some startNode ∧ a.startNodeId = s.startNodeId) →
      Table.get? (a.hold q.1.id q.2).nodes s.startNodeId = some startNode ∧
        (a.hold q.1.id q.2).startNodeId = s.startNodeId := by
    rintro a q - ⟨hnode, hid⟩
    unfold hold
    split
    · exact ⟨hnode, hid⟩
    · split
      · exact ⟨hnode, hid⟩
      · rename_i hne
        exact ⟨(Table.get?_set_of_ne _ (hid ▸ hne) _).trans hnode, hid⟩
  have hbegin : Table.get? (ofSettings s).nodes s.startNodeId = some startNode := by
    simp [ofSettings, begin, Table.get?]
  exact (holdAll_invariant hstep ⟨hbegin, rfl⟩).1

end Assembly

/-! ## §3 The last step of an id -/

namespace Flow

variable {f : Flow} {id : String}

/-- The last step with the id that has a node. -/
def lastActionable? (f : Flow) (id : String) : Option Step :=
  f.steps.reverse.find? fun t => t.id = id && t.isActionable

theorem hasActionable_iff_last : f.HasActionable id ↔ ∃ t, f.lastActionable? id = some t := by
  rw [← Option.isSome_iff_exists, lastActionable?, List.find?_isSome]
  simp [HasActionable]

theorem lastActionable?_of_step? {t : Step} (h : f.step? id = some t)
    (ht : t.isActionable = true) : f.lastActionable? id = some t := by
  obtain ⟨hid, before, after, hsteps, hbefore⟩ := List.find?_eq_some_iff_append.1 h
  refine List.find?_eq_some_iff_append.2 ⟨by simp_all, before, after, hsteps, fun t' ht' => ?_⟩
  have hother := hbefore t' ht'
  simp_all

/-- Some step of the id has a node, but the last one has none. -/
def Outlived (f : Flow) (id : String) : Prop :=
  f.HasActionable id ∧ ∃ t, f.step? id = some t ∧ t.isActionable = false

/-- Unless an id is outlived, its last step is the one whose node counts. -/
theorem lastActionable?_eq_step? (h : ¬ f.Outlived id) (hid : f.HasActionable id) :
    f.lastActionable? id = f.step? id := by
  have hdeclared : ∃ t, f.step? id = some t := by
    obtain ⟨t, ht, rfl, -⟩ := hid
    exact Option.isSome_iff_exists.1 (step?_isSome ht)
  obtain ⟨t, ht⟩ := hdeclared
  have hactionable : t.isActionable = true := by
    by_contra hnot
    exact h ⟨hid, t, ht, Bool.eq_false_iff.2 hnot⟩
  rw [ht, lastActionable?_of_step? ht hactionable]

/-- Unless an id is outlived, it has a node just in case its last step has one. -/
theorem hasActionable_iff_step? (h : ¬ f.Outlived id) :
    f.HasActionable id ↔ ∃ t, f.step? id = some t ∧ t.isActionable = true := by
  constructor
  · intro hid
    obtain ⟨t, ht⟩ := hasActionable_iff_last.1 hid
    have hfound := List.find?_some ht
    simp only [Bool.and_eq_true] at hfound
    exact ⟨t, (lastActionable?_eq_step? h hid).symm.trans ht, hfound.2⟩
  · rintro ⟨t, ht, hactionable⟩
    obtain ⟨hmem, hid⟩ := mem_of_step?_eq_some ht
    exact ⟨t, hmem, hid, hactionable⟩

end Flow

/-! ## §4 Compiled flows -/

/-- The node is the one that the step compiles to, apart from the edges that it lists. -/
def Step.Makes (t : Step) (n : Node) : Prop :=
  ∃ c node, t.compile.Gives c ∧ c.node = some node ∧ node.bare = n.bare

theorem Step.Makes.not_isStart {t : Step} {n : Node} (h : t.Makes n) : n.kind.isStart = false := by
  obtain ⟨c, node, hc, hnode, hbare⟩ := h
  obtain ⟨kind, hkind, hfresh⟩ := Step.hasFreshNode_of_node hc (hnode ▸ rfl)
  obtain rfl := Option.some.inj (hnode.symm.trans hfresh)
  have hsame : kind = n.kind := congrArg Node.kind hbare
  exact hsame ▸ hkind

namespace Step

variable {t : Step} {n n' : Node}

/-- A step that makes a node brings it together with its facts. -/
theorem Makes.brings (h : t.Makes n) :
    ∃ c, t.compile.Gives c ∧ t.Brings t.category.nodeType c n.kind := by
  obtain ⟨c, node, hc, hnode, hbare⟩ := h
  cases ht : t.isActionable with
  | false =>
    -- A structural step makes no node.
    rw [compile_structural hc ht] at hnode
    cases hnode
  | true =>
    obtain ⟨kind, hbrings⟩ := compile_brings hc ht
    obtain rfl := Option.some.inj (hnode.symm.trans hbrings.node)
    have hkind : kind = n.kind := congrArg Node.kind hbare
    exact ⟨c, hc, hkind ▸ hbrings⟩

theorem Brings.makes {type : String} {c : Compiled} {kind : NodeKind} (h : t.Brings type c kind)
    (hc : t.compile.Gives c) : t.Makes (t.plainNode kind) :=
  ⟨c, _, hc, h.node, rfl⟩

/-- A step makes nodes of one kind only. -/
theorem Makes.kind_unique (h : t.Makes n) (h' : t.Makes n') : n.kind = n'.kind := by
  obtain ⟨c, hc, hbrings⟩ := h.brings
  obtain ⟨c', hc', hbrings'⟩ := h'.brings
  obtain rfl := hc.unique hc'
  have hnode := Option.some.inj (hbrings.node.symm.trans hbrings'.node)
  have hkind : (t.plainNode n.kind).kind = (t.plainNode n'.kind).kind := congrArg Node.kind hnode
  exact hkind

end Step

namespace Flow

variable {f : Flow}

/-- What is held under an id besides the start is the node of its last step with a node. -/
theorem CompilesTo.held_cases {compiled : List Compiled} (h : f.CompilesTo compiled) {s : Settings}
    {id : String} (hid : id ≠ s.startNodeId) :
    (∃ t c node, f.lastActionable? id = some t ∧ t.compile.Gives c ∧ c.node = some node ∧
      Table.get? ((Assembly.ofSettings s).holdAll (f.steps.zip compiled)).nodes id = some node) ∨
    (f.lastActionable? id = none ∧
      Table.get? ((Assembly.ofSettings s).holdAll (f.steps.zip compiled)).nodes id = none) := by
  have hheld := Assembly.held_of_last (a := Assembly.ofSettings s) h hid
  unfold lastActionable?
  cases hlast : f.steps.reverse.find? fun t => t.id = id && t.isActionable with
  | some t =>
    rw [hlast] at hheld
    obtain ⟨c, node, hc, hnode, hget⟩ := hheld
    exact Or.inl ⟨t, c, node, rfl, hc, hnode, hget⟩
  | none =>
    rw [hlast] at hheld
    exact Or.inr ⟨rfl, Eq.trans hheld (Assembly.get?_ofSettings hid)⟩

/-- **Which ids have nodes**: that of the start node, and those of steps with nodes. -/
theorem CompilesTo.has_holdAll {compiled : List Compiled} (h : f.CompilesTo compiled)
    (s : Settings) (id : String) :
    Table.has ((Assembly.ofSettings s).holdAll (f.steps.zip compiled)).nodes id = true ↔
      id = s.startNodeId ∨ f.HasActionable id := by
  by_cases hid : id = s.startNodeId
  · rw [hid]
    exact iff_of_true (Assembly.has_start_holdAll s _) (Or.inl rfl)
  · rw [or_iff_right hid, hasActionable_iff_last, Table.has]
    rcases h.held_cases hid with ⟨t, c, node, hlast, -, -, hget⟩ | ⟨hlast, hget⟩
    · simp [hlast, hget]
    · simp [hlast, hget]

namespace Passes

variable (p : Passes f) (s : Settings)

/-- Apart from the edges that it lists, every node of a result is one that has been held. -/
theorem bare_result (id : String) :
    (Table.get? (p.result s).workflow.nodes id).map Node.bare =
      (Table.get? (p.held s).nodes id).map Node.bare :=
  (Assembly.bare_placeAll ..).trans (Assembly.bare_enter ..)

/-- The id of the start node has a start node, whatever the flow declares. -/
theorem start_result {n : Node}
    (hn : Table.get? (p.result s).workflow.nodes s.startNodeId = some n) :
    n.kind.isStart = true := by
  have hbare := p.bare_result s s.startNodeId
  have hheld : Table.get? (p.held s).nodes s.startNodeId = some Assembly.startNode :=
    Assembly.get?_start_holdAll s _
  rw [hn, hheld, Option.map_some, Option.map_some] at hbare
  have hbares : n.bare = Assembly.startNode.bare := Option.some.inj hbare
  have hsame : n.bare.kind = Assembly.startNode.bare.kind := congrArg Node.kind hbares
  show n.bare.kind.isStart = true
  rw [hsame]
  rfl

/-- **The last step with a node counts.** Its node is that of the id, and without such a step the
id has none. -/
theorem node_cases {id : String} (hid : id ≠ s.startNodeId) :
    (∃ t n, f.lastActionable? id = some t ∧
      Table.get? (p.result s).workflow.nodes id = some n ∧ t.Makes n) ∨
    (f.lastActionable? id = none ∧ Table.get? (p.result s).workflow.nodes id = none) := by
  have hbare := p.bare_result s id
  rcases p.compiles.held_cases hid with ⟨t, c, node, hlast, hc, hnode, hget⟩ | ⟨hlast, hget⟩
  · rw [held, hget, Option.map_some] at hbare
    obtain ⟨n, hn, hsame⟩ := Option.map_eq_some_iff.1 hbare
    exact Or.inl ⟨t, n, hlast, hn, c, node, hc, hnode, hsame.symm⟩
  · rw [held, hget] at hbare
    exact Or.inr ⟨hlast, Option.map_eq_none_iff.1 hbare⟩

theorem exists_node {id : String} (hid : id ≠ s.startNodeId) (h : f.HasActionable id) :
    ∃ n, ∃ t : Step, Table.get? (p.result s).workflow.nodes id = some n ∧ t.Makes n := by
  obtain ⟨t, ht⟩ := hasActionable_iff_last.1 h
  rcases p.node_cases s hid with ⟨t', n, -, hn, hmakes⟩ | ⟨hnone, -⟩
  · exact ⟨n, t', hn, hmakes⟩
  · exact absurd (ht.symm.trans hnone) nofun

theorem exists_makes {id : String} {n : Node} (hid : id ≠ s.startNodeId)
    (hn : Table.get? (p.result s).workflow.nodes id = some n) :
    ∃ t, f.lastActionable? id = some t ∧ t.Makes n := by
  rcases p.node_cases s hid with ⟨t, n', ht, hn', hmakes⟩ | ⟨-, hnone⟩
  · obtain rfl := Option.some.inj (hn.symm.trans hn')
    exact ⟨t, ht, hmakes⟩
  · exact absurd (hn.symm.trans hnone) nofun

end Passes

/-- **The last step with a node wins.** Besides the start, the ids of nodes are those of steps with
nodes, and each node is the one that the last such step of its id compiles to. Unless the id is
outlived, this is the last step of the id altogether. -/
theorem last_node_wins (f : Flow) (s : Settings) {c : Compilation} (h : f.Returns s c) :
    (∀ id, (∃ n, Table.get? c.workflow.nodes id = some n ∧ n.kind.isStart = false) ↔
      id ≠ s.startNodeId ∧ f.HasActionable id) ∧
    (∀ id n, Table.get? c.workflow.nodes id = some n → n.kind.isStart = false →
      ∃ t, f.lastActionable? id = some t ∧ t.Makes n) ∧
    ∀ id, id ≠ s.startNodeId → ¬ f.Outlived id →
      ((∃ n, Table.get? c.workflow.nodes id = some n) ↔
        ∃ t, f.step? id = some t ∧ t.isActionable = true) ∧
      ∀ n, Table.get? c.workflow.nodes id = some n → ∃ t, f.step? id = some t ∧ t.Makes n := by
  obtain ⟨p, hp⟩ := h.passes
  have hnodes : c.workflow.nodes = (p.result s).workflow.nodes := by rw [hp]
  rw [hnodes]
  -- The id of the start has a start node, so other nodes have other ids.
  have hstart : ∀ {id n}, Table.get? (p.result s).workflow.nodes id = some n →
      n.kind.isStart = false → id ≠ s.startNodeId := by
    rintro _ n hn hkind rfl
    rw [p.start_result s hn] at hkind
    cases hkind
  refine ⟨fun id => ⟨?_, ?_⟩, fun id n hn hkind => ?_, fun id hid hlived => ⟨?_, fun n hn => ?_⟩⟩
  -- Which ids have nodes: those of steps with nodes.
  · rintro ⟨n, hn, hkind⟩
    have hid := hstart hn hkind
    exact ⟨hid, hasActionable_iff_last.2 ((p.exists_makes s hid hn).imp fun t ht => ht.1)⟩
  · rintro ⟨hid, hactionable⟩
    obtain ⟨n, t, hn, hmakes⟩ := p.exists_node s hid hactionable
    exact ⟨n, hn, hmakes.not_isStart⟩
  -- Which nodes they are: those of the last such steps.
  · exact p.exists_makes s (hstart hn hkind) hn
  -- Unless the id is outlived, both come down to its last step.
  · rw [← hasActionable_iff_step? hlived]
    constructor
    · rintro ⟨n, hn⟩
      exact hasActionable_iff_last.2 ((p.exists_makes s hid hn).imp fun t ht => ht.1)
    · intro hactionable
      obtain ⟨n, t, hn, -⟩ := p.exists_node s hid hactionable
      exact ⟨n, hn⟩
  · obtain ⟨t, ht, hmakes⟩ := p.exists_makes s hid hn
    have hsame := lastActionable?_eq_step? hlived (hasActionable_iff_last.2 ⟨t, ht⟩)
    exact ⟨t, hsame.symm.trans ht, hmakes⟩

/-- A flow in which a question takes the place of a message, a message that of a trigger, and a
branch that of an end. -/
def redeclared : Flow where
  steps := [
    { id := "t", type := some "trigger" },
    { id := "a", type := some "message" },
    { id := "b", type := some "end" },
    { id := "a", type := some "question" },
    { id := "t", type := some "message" },
    { id := "b", type := some "condition" }]
  links := [
    { id := "e1", source := "t", target := "a" },
    { id := "e2", source := "a", target := "b" }]

/-- The branch has no node, so the end outlives it. What is declared last wins at the other ids. -/
theorem last_node_wins_redeclared :
    ∃ c, redeclared.Returns {} c ∧
      (∃ n, Table.get? c.workflow.nodes "a" = some n ∧
        ∃ t, redeclared.step? "a" = some t ∧ t.Makes n) ∧
      ∃ n, Table.get? c.workflow.nodes "b" = some n ∧
        ∃ t, redeclared.lastActionable? "b" = some t ∧ t.Makes n := by
  obtain ⟨c, hgives⟩ := gives_of_succeeds (a := redeclared.compile {}) (by decide +kernel)
  have hreturns : redeclared.Returns {} c := .plain hgives
  have hwins := last_node_wins redeclared {} hreturns
  have ha : redeclared.HasActionable "a" := by decide +kernel
  have hb : redeclared.HasActionable "b" := by decide +kernel
  have hlast : (redeclared.step? "a").map Step.isActionable = some true := by decide +kernel
  have hlived : ¬ redeclared.Outlived "a" := by
    rintro ⟨-, t, ht, hstructural⟩
    simp [ht, hstructural] at hlast
  obtain ⟨n, hn, hkind⟩ := (hwins.1 "a").2 ⟨by decide, ha⟩
  obtain ⟨m, hm, hother⟩ := (hwins.1 "b").2 ⟨by decide, hb⟩
  exact ⟨c, hreturns, ⟨n, hn, (hwins.2.2 "a" (by decide) hlived).2 n hn⟩, m, hm,
    hwins.2.1 "b" m hm hother⟩

/-- The last step of an id may be a branch and yet the id has a node. -/
theorem redeclared_outlived :
    (∀ t ∈ redeclared.steps, t.id ≠ Workflow.defaultStartId) ∧
      (∃ t, redeclared.step? "b" = some t ∧ t.category = .condition) ∧
      ∃ c, redeclared.Returns {} c ∧
        ∃ n, Table.get? c.workflow.nodes "b" = some n ∧ n.kind.isStart = false := by
  have hlast : (redeclared.step? "b").map Step.category = some .condition := by decide +kernel
  obtain ⟨c, hgives⟩ := gives_of_succeeds (a := redeclared.compile {}) (by decide +kernel)
  have hkind : (redeclared.compile {}).outcome.map (fun c =>
      (Table.get? c.workflow.nodes "b").map fun n => n.kind.isStart) = .ok (some false) := by
    decide +kernel
  rw [hgives] at hkind
  obtain ⟨n, hn, hother⟩ := Option.map_eq_some_iff.1 (Except.ok.inj hkind)
  exact ⟨by decide, Option.map_eq_some_iff.1 hlast, c, .plain hgives, n, hn, hother⟩

end Flow

end CallFlow
