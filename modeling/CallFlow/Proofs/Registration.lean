import CallFlow.Proofs.Plan
import CallFlow.Proofs.Repeated

/-!
# What Is Registered

Before a workflow can run, tools and recordings have to be registered, and the runtime wants to
know whether calls are handed over. These facts are collected step by step while steps are
compiled, and they are true of the nodes that the steps bring. Nodes may be overridden, however:
by the start node, or by a later step with the same id. Their facts are not taken back. So what is
registered is what the nodes of the workflow call for, and besides what overridden nodes would
have called for.

## Sections

1. Collecting facts
2. Facts about nodes
3. Overridden steps
4. Registered facts
-/

namespace CallFlow

open Attempt

/-! ## §1 Collecting facts -/

/-- Collecting facts goes through the compiled steps once, and every kind of fact is collected on
its own. -/
theorem Facts.foldl_absorb (facts : Facts) (compiled : List Compiled) :
    compiled.foldl Facts.absorb facts =
      { hasTransfer := facts.hasTransfer || compiled.any Compiled.hasTransfer
        hasAppointment := facts.hasAppointment || compiled.any Compiled.hasAppointment
        hasForm := facts.hasForm || compiled.any Compiled.hasForm
        forms := facts.forms ++ compiled.filterMap Compiled.form
        webhooks := facts.webhooks ++ compiled.filterMap Compiled.webhook
        audios := facts.audios ++ compiled.filterMap Compiled.audio
        toolIds := facts.toolIds ++ compiled.flatMap Compiled.toolIds } := by
  induction compiled generalizing facts with
  | nil => simp
  | cons c rest ih =>
    rw [List.foldl_cons, ih]
    -- What comes with the first step stands in front, if there is anything.
    cases hform : c.form <;> cases hwebhook : c.webhook <;> cases haudio : c.audio <;>
      simp [absorb, Bool.or_assoc, hform, hwebhook, haudio]

/-! ## §2 Facts about nodes -/

namespace Flow

variable {f : Flow}

/-- What is a fact about nodes is collected just in case some step makes such a node. -/
theorem CompilesTo.exists_fact_iff {compiled : List Compiled} (h : f.CompilesTo compiled)
    {P : Compiled → Prop} {Q : NodeKind → Prop} (hnone : ¬ P {})
    (hsome : ∀ (t : Step) c kind, t.Brings t.category.nodeType c kind → (P c ↔ Q kind)) :
    (∃ c ∈ compiled, P c) ↔ ∃ t ∈ f.steps, ∃ n, t.Makes n ∧ Q n.kind := by
  constructor
  · rintro ⟨c, hc, hfact⟩
    obtain ⟨t, ht, hgives⟩ := exists_of_mem_right h hc
    cases hactionable : t.isActionable with
    | false =>
      -- Steps without nodes bring nothing.
      rw [Step.compile_structural hgives hactionable] at hfact
      exact absurd hfact hnone
    | true =>
      obtain ⟨kind, hbrings⟩ := Step.compile_brings hgives hactionable
      exact ⟨t, ht, _, hbrings.makes hgives, (hsome t c kind hbrings).1 hfact⟩
  · rintro ⟨t, ht, n, hmakes, hfact⟩
    obtain ⟨c, hc, hgives⟩ := exists_of_mem_left h ht
    obtain ⟨c', hgives', hbrings⟩ := hmakes.brings
    obtain rfl := hgives.unique hgives'
    exact ⟨c, hc, (hsome t c n.kind hbrings).2 hfact⟩

/-! ## §3 Overridden steps -/

/-- The id of the step belongs to another node: that of the start, or that of a later step. -/
def Overridden (f : Flow) (startId : String) (t : Step) : Prop :=
  t.id = startId ∨ f.lastActionable? t.id ≠ some t

namespace Passes

variable (p : Passes f) (s : Settings)

/-- Under every name there is one node at most. -/
theorem get?_node_iff {id : String} {n : Node} :
    Table.get? (p.result s).workflow.nodes id = some n ↔
      (id, n) ∈ (p.result s).workflow.nodes :=
  Table.get?_eq_some_iff_mem (p.nodup_nodes_result s)

/-- A step that is not overridden has the node that it makes. -/
theorem node_of_not_overridden {t : Step} {n : Node} (hmakes : t.Makes n)
    (ht : ¬ f.Overridden s.startNodeId t) :
    ∃ n', Table.get? (p.result s).workflow.nodes t.id = some n' ∧ n'.kind = n.kind := by
  obtain ⟨hid, hlast⟩ := not_or.1 ht
  have hlast := not_not.1 hlast
  rcases p.node_cases s hid with ⟨t', n', ht', hn', hmakes'⟩ | ⟨hnone, -⟩
  · -- The node is made by the last step with the id, and that is this one. Only edges differ.
    obtain rfl := Option.some.inj (hlast.symm.trans ht')
    exact ⟨n', hn', hmakes'.kind_unique hmakes⟩
  · rw [hlast] at hnone
    cases hnone

/-- **Nodes that steps make** are nodes of the result, or else their steps are overridden. -/
theorem exists_makes_iff {Q : NodeKind → Prop} (hstart : ¬ Q .start) :
    (∃ t ∈ f.steps, ∃ n, t.Makes n ∧ Q n.kind) ↔
      (∃ n ∈ (p.result s).workflow.nodes, Q n.2.kind) ∨
      ∃ t ∈ f.steps, f.Overridden s.startNodeId t ∧ ∃ n, t.Makes n ∧ Q n.kind := by
  constructor
  · rintro ⟨t, ht, n, hmakes, hkind⟩
    by_cases hover : f.Overridden s.startNodeId t
    · exact Or.inr ⟨t, ht, hover, n, hmakes, hkind⟩
    · obtain ⟨n', hn', hsame⟩ := p.node_of_not_overridden s hmakes hover
      exact Or.inl ⟨(t.id, n'), (p.get?_node_iff s).1 hn', hsame.symm ▸ hkind⟩
  · rintro (⟨⟨id, n⟩, hn, hkind⟩ | ⟨t, ht, -, hmakes⟩)
    · have hget := (p.get?_node_iff s).2 hn
      -- A fact that is not true of the start is about a node that some step makes.
      have hid : id ≠ s.startNodeId := by
        rintro rfl
        have hisStart := p.start_result s hget
        cases hn : n.kind <;> simp [hn, NodeKind.isStart] at hisStart
        exact hstart (hn ▸ hkind)
      obtain ⟨t, hlast, hmakes⟩ := p.exists_makes s hid hget
      have ht : t ∈ f.steps := List.mem_reverse.1 (List.mem_of_find?_eq_some hlast)
      exact ⟨t, ht, n, hmakes, hkind⟩
    · exact ⟨t, ht, hmakes⟩

/-! ## §4 Registered facts -/

theorem mem_toolIds_result {id : String} :
    id ∈ (p.result s).facts.toolIds ↔ ∃ t ∈ f.steps, ∃ n, t.Makes n ∧ id ∈ n.kind.toolIds := by
  rw [← p.compiles.exists_fact_iff (P := fun c => id ∈ c.toolIds) (by simp)
    (Q := fun kind => id ∈ kind.toolIds)]
  · simp [result, compilation, Facts.foldl_absorb]
  · intro t c kind hbrings
    rw [hbrings.toolIds]

theorem hasTransfer_result :
    (p.result s).facts.hasTransfer = true ↔
      ∃ t ∈ f.steps, ∃ n, t.Makes n ∧ n.kind.tag = "phone_number" := by
  rw [← p.compiles.exists_fact_iff (P := fun c => c.hasTransfer = true) (by simp)
    (Q := fun kind => kind.tag = "phone_number")]
  · simp [result, compilation, Facts.foldl_absorb]
  · intro t c kind hbrings
    rw [hbrings.transfer, decide_eq_true_iff]

/-- A recording is registered for a step that makes a node for it. -/
theorem of_mem_audios {a : AudioRegistration} (ha : a ∈ (p.result s).facts.audios) :
    ∃ t ∈ f.steps, t.id = a.stepId ∧ ∃ n, t.Makes n ∧ n.kind = .tools [Step.audioToolId a.stepId] := by
  have hcollected : ∃ c ∈ p.compiled, c.audio = some a := by
    simpa [result, compilation, Facts.foldl_absorb] using ha
  obtain ⟨c, hc, haudio⟩ := hcollected
  obtain ⟨t, ht, hgives⟩ := exists_of_mem_right p.compiles hc
  cases hactionable : t.isActionable with
  | false =>
    rw [Step.compile_structural hgives hactionable] at haudio
    cases haudio
  | true =>
    obtain ⟨kind, hbrings⟩ := Step.compile_brings hgives hactionable
    obtain ⟨hid, hkind⟩ := hbrings.audio a haudio
    exact ⟨t, ht, hid.symm, _, hbrings.makes hgives, hid ▸ hkind⟩

end Passes

/-- **What is registered.** The registered tools are those that nodes of the workflow refer to and
those that overridden nodes would have referred to. A hand-over is announced just in case there is
a node for one, or an overridden one. And every recording is played by the tool node of its id,
unless that is overridden. -/
theorem registered_facts (f : Flow) (s : Settings) {c : Compilation} (h : f.Returns s c) :
    (∀ id, id ∈ c.facts.toolIds ↔
      (∃ n ∈ c.workflow.nodes, id ∈ n.2.kind.toolIds) ∨
      ∃ t ∈ f.steps, f.Overridden s.startNodeId t ∧ ∃ n, t.Makes n ∧ id ∈ n.kind.toolIds) ∧
    (c.facts.hasTransfer = true ↔
      (∃ n ∈ c.workflow.nodes, n.2.kind.tag = "phone_number") ∨
      ∃ t ∈ f.steps, f.Overridden s.startNodeId t ∧
        ∃ n, t.Makes n ∧ n.kind.tag = "phone_number") ∧
    ∀ a ∈ c.facts.audios,
      (∃ n, Table.get? c.workflow.nodes a.stepId = some n ∧
        n.kind = .tools [Step.audioToolId a.stepId]) ∨
      ∃ t ∈ f.steps, f.Overridden s.startNodeId t ∧ t.id = a.stepId ∧
        ∃ n, t.Makes n ∧ n.kind = .tools [Step.audioToolId a.stepId] := by
  obtain ⟨p, hp⟩ := h.passes
  have hfacts : c.facts = (p.result s).facts := by rw [hp]
  have hworkflow : c.workflow = (p.result s).workflow := by rw [hp]
  rw [hfacts, hworkflow]
  refine ⟨fun id => ?_, ?_, fun a ha => ?_⟩
  · rw [p.mem_toolIds_result s]
    exact p.exists_makes_iff s (Q := fun kind => id ∈ kind.toolIds) (by simp [NodeKind.toolIds])
  · rw [p.hasTransfer_result s]
    exact p.exists_makes_iff s (Q := fun kind => kind.tag = "phone_number")
      (by simp [NodeKind.tag])
  · obtain ⟨t, ht, hid, n, hmakes, hkind⟩ := p.of_mem_audios s ha
    by_cases hover : f.Overridden s.startNodeId t
    · exact Or.inr ⟨t, ht, hover, hid, n, hmakes, hkind⟩
    · obtain ⟨n', hn', hsame⟩ := p.node_of_not_overridden s hmakes hover
      exact Or.inl ⟨n', hid ▸ hn', hsame.trans hkind⟩

/-- A flow in which a message takes the place of a step that calls a service. -/
def renovated : Flow where
  steps := [
    { id := "w", type := some "webhook", data := { config := [("toolId", .str "a")] } },
    { id := "w", type := some "message" }]

theorem renovated_result :
    ∃ c, renovated.Returns {} c ∧ "a" ∈ c.facts.toolIds ∧
      ¬ ∃ n ∈ c.workflow.nodes, "a" ∈ n.2.kind.toolIds := by
  obtain ⟨c, hgives⟩ := gives_of_succeeds (a := renovated.compile {}) (by decide +kernel)
  have hresult : (renovated.compile {}).outcome.map (fun c =>
      (c.facts.toolIds, c.workflow.nodes.any fun n => n.2.kind.toolIds.contains "a")) =
        .ok (["a"], false) := by
    decide +kernel
  rw [hgives] at hresult
  obtain ⟨htools, hnodes⟩ := Prod.mk.inj (Except.ok.inj hresult)
  refine ⟨c, .plain hgives, htools ▸ List.mem_singleton_self _, ?_⟩
  rintro ⟨n, hn, hmem⟩
  have hany := List.any_eq_false.1 hnodes n hn
  exact hany (List.contains_iff_mem.2 hmem)

/-- The tool of the service is registered because of the step that is overridden. -/
theorem registered_facts_renovated :
    ∃ c, renovated.Returns {} c ∧ "a" ∈ c.facts.toolIds ∧
      ∃ t ∈ renovated.steps, renovated.Overridden Workflow.defaultStartId t ∧
        ∃ n, t.Makes n ∧ "a" ∈ n.kind.toolIds := by
  obtain ⟨c, hreturns, htool, hnone⟩ := renovated_result
  have hfacts := (registered_facts renovated {} hreturns).1 "a"
  exact ⟨c, hreturns, htool, (hfacts.1 htool).resolve_left hnone⟩

/-- A tool is registered, and no node refers to it. -/
theorem renovated_stale :
    ∃ c, renovated.Returns {} c ∧
      ¬ ∀ id, id ∈ c.facts.toolIds ↔ ∃ n ∈ c.workflow.nodes, id ∈ n.2.kind.toolIds := by
  obtain ⟨c, hreturns, htool, hnone⟩ := renovated_result
  exact ⟨c, hreturns, fun hsame => hnone ((hsame "a").1 htool)⟩

end Flow

end CallFlow
