import CallFlow.Proofs.Enriched
import CallFlow.Proofs.Muted
import CallFlow.Service

/-!
# Stored Forms Do Not Shape Workflows

Whatever forms a service finds, and whether it finds any, the workflow has the same shape. A stored
form ends up in the prompt of the step that names it and in the registration of the form, and
nowhere else: not in the ids of nodes, not in edges, not in the entry, and not in the findings of
the validation.

## Sections

1. Compiling alike steps
2. Compiling alike flows
3. What a service gives
4. Services with different forms
-/

namespace CallFlow

open Attempt

/-! ## §1 Compiling alike steps -/

namespace Step

variable {t u : Step} {c c' : Compiled}

theorem compile_of_isForm (h : t.category.isForm = true) : t.compile = t.compileForm := by
  unfold compile
  cases hcategory : t.category <;> simp_all [Category.isForm]

/-- What a step that names a form is compiled to, apart from what it reads of the form. -/
theorem of_compileForm (hid : (t.setting "formId").isGiven = true) (h : t.compileForm.Gives c) :
    ∃ prompt formName fields,
      c = { node := some (t.scriptNode prompt [formToolId (t.setting "formId").display])
            hasForm := true
            form := some { formId := (t.setting "formId").display, formName, fields }
            toolIds := [formToolId (t.setting "formId").display] } := by
  obtain ⟨fields, -, rfl⟩ := gives_compileForm.1 h
  exact ⟨_, _, fields, if_pos hid⟩

/-- **Alike steps are compiled alike**, apart from the texts of their forms. -/
theorem Alike.mute_compile (h : t.Alike u) (hc : t.compile.Gives c) (hc' : u.compile.Gives c') :
    c'.mute = c.mute := by
  cases hnames : t.namesForm with
  | false =>
    obtain rfl := h.same hnames
    rw [hc.unique hc']
  | true =>
    obtain ⟨hform, hid⟩ := Bool.and_eq_true_iff.1 hnames
    have hform' : u.category.isForm = true := by rw [h.category, hform]
    have hsame : u.setting "formId" = t.setting "formId" := h.setting (by decide)
    have hid' : (u.setting "formId").isGiven = true := by rw [hsame, hid]
    rw [compile_of_isForm hform] at hc
    rw [compile_of_isForm hform'] at hc'
    obtain ⟨prompt, formName, fields, rfl⟩ := of_compileForm hid hc
    obtain ⟨prompt', formName', fields', rfl⟩ := of_compileForm hid' hc'
    -- What is left of the node are its place, its label and its tool.
    simp only [Compiled.mute, Option.map_some, Node.mute, Node.withPrompt, NodeKind.withPrompt,
      scriptNode, hsame, h.position, h.nodeLabel]

end Step

/-! ## §2 Compiling alike flows -/

namespace Flow

variable {f g : Flow}

/-- The results of compiling alike steps, and these results beside their steps. -/
theorem mute_compiled {steps steps' : List Step} (h : List.Forall₂ Step.Alike steps steps')
    {l l' : List Compiled} (hl : List.Forall₂ (fun t c => t.compile.Gives c) steps l)
    (hl' : List.Forall₂ (fun t c => t.compile.Gives c) steps' l') :
    List.Forall₂ (fun c c' => c'.mute = c.mute) l l' ∧
      List.Forall₂ (fun q q' => q'.1.id = q.1.id ∧ q'.2.mute = q.2.mute) (steps.zip l)
        (steps'.zip l') := by
  induction h generalizing l l' with
  | nil =>
    cases hl
    cases hl'
    exact ⟨.nil, .nil⟩
  | cons htu _ ih =>
    obtain ⟨c, rest, hc, hrest, rfl⟩ := List.forall₂_cons_left_iff.1 hl
    obtain ⟨c', rest', hc', hrest', rfl⟩ := List.forall₂_cons_left_iff.1 hl'
    have hmute := htu.mute_compile hc hc'
    obtain ⟨hcompiled, hbeside⟩ := ih hrest hrest'
    exact ⟨.cons hmute hcompiled, .cons ⟨htu.id, hmute⟩ hbeside⟩

namespace Alike

variable (h : f.Alike g) (p : Passes f) (p' : Passes g) (s : Settings)

include h

/-- **Alike flows have the same result**, apart from the texts of their forms. -/
theorem mute_result : (p'.result s).mute = (p.result s).mute := by
  obtain ⟨hcompiled, hbeside⟩ := mute_compiled h.steps p.compiles p'.compiles
  obtain ⟨hentry, hmessage⟩ := h.entry p.entry_gives p'.entry_gives
  have hheld : (p'.held s).mute = (p.held s).mute := Assembly.holdAll_mute rfl hbeside
  have hplaced : ((p'.entered s).placeAll p'.plan).mute = ((p.entered s).placeAll p.plan).mute := by
    rw [h.sameRoads.plan p p', Assembly.placeAll_mute, Assembly.placeAll_mute, Passes.entered,
      Passes.entered, Assembly.enter_mute, Assembly.enter_mute, hheld, hentry]
  have hworkflow : (p'.result s).workflow.mute = (p.result s).workflow.mute :=
    (congrArg Assembly.workflow hplaced :)
  have hdropped : (p'.result s).dropped = (p.result s).dropped :=
    (congrArg Assembly.dropped hplaced :)
  have hfacts : (p'.result s).facts.mute = (p.result s).facts.mute :=
    Facts.foldl_absorb_mute hcompiled rfl
  have hentryId : (p'.result s).entryId = (p.result s).entryId := hentry
  have hfirst : (p'.result s).firstMessage = (p.result s).firstMessage := hmessage
  rw [Compilation.mute, Compilation.mute, hworkflow, hfacts, hentryId, hfirst, hdropped]
  rfl

/-- Nodes of both results with the same id are equal without their prompts. -/
theorem mute_node {id : String} {n m : Node}
    (hn : Table.get? (p.result s).workflow.nodes id = some n)
    (hm : Table.get? (p'.result s).workflow.nodes id = some m) : m.mute = n.mute := by
  have hget := congrArg (fun c => Table.get? c.workflow.nodes id) (h.mute_result p p' s)
  simpa only [Compilation.mute, Workflow.mute, Table.get?_mapValues, hn, hm, Option.map_some,
    Option.some.injEq] using hget

/-- A node whose step names no form is the same in both results. -/
theorem node_eq {id : String} {n m : Node}
    (hn : Table.get? (p.result s).workflow.nodes id = some n)
    (hm : Table.get? (p'.result s).workflow.nodes id = some m)
    (hnames : ∀ t, f.lastActionable? id = some t → t.namesForm = false) : m = n := by
  obtain ⟨prompt, rfl⟩ := Node.exists_prompt_of_mute (h.mute_node p p' s hn hm)
  by_cases hid : id = s.startNodeId
  · subst hid
    exact Node.withPrompt_of_isStart (p.start_result s hn) prompt
  · obtain ⟨t, ht, hmakes⟩ := p.exists_makes s hid hn
    obtain ⟨u, hu, hmakes'⟩ := p'.exists_makes s hid hm
    -- Both nodes are made by the same step, so they are of the same kind.
    obtain ⟨u', hu', htu⟩ := of_rel_left (h.lastActionable? id) ht
    obtain rfl := Option.some.inj (hu'.symm.trans hu)
    obtain rfl := htu.same (hnames _ ht)
    exact Node.withPrompt_of_kind (hmakes'.kind_unique hmakes)

end Alike

/-- What is prepared from the same flow has the same nodes, but for the prompts of those whose steps
name a form. -/
theorem Alike.node_cases {g' : Flow} (hg : f.Alike g) (hg' : f.Alike g') (p : Passes g)
    (p' : Passes g') (s : Settings) {id : String} {n m : Node}
    (hn : Table.get? (p.result s).workflow.nodes id = some n)
    (hm : Table.get? (p'.result s).workflow.nodes id = some m) :
    m = n ∨ ∃ t, f.lastActionable? id = some t ∧ t.namesForm = true ∧
      ∃ prompt, m = n.withPrompt prompt := by
  have halike : g.Alike g' := hg.join hg'
  by_cases hnames : ∃ t, f.lastActionable? id = some t ∧ t.namesForm = true
  · obtain ⟨t, ht, hform⟩ := hnames
    have hmute := halike.mute_node p p' s hn hm
    exact Or.inr ⟨t, ht, hform, Node.exists_prompt_of_mute hmute⟩
  · -- The step of the node names no form, so neither does the one that is prepared from it.
    refine Or.inl (halike.node_eq p p' s hn hm fun u hu => ?_)
    obtain ⟨t, ht, htu⟩ := of_rel_right (hg.lastActionable? id) hu
    rw [htu.namesForm, Bool.eq_false_iff]
    intro hform
    exact hnames ⟨t, ht, hform⟩

end Flow

/-! ## §3 What a service gives -/

namespace CompileService

variable {f : Flow} {a : CompileService}

theorem alike_of_prepare {g : Flow} (h : (a.prepare f).Gives g) : f.Alike g := by
  unfold prepare at h
  split at h
  · rw [gives_pure.1 h]
    exact ⟨rfl, List.forall₂_same.2 fun t _ => Step.Alike.refl t⟩
  · exact Flow.alike_of_enrich h

/-- The findings come with the result. -/
theorem gives_validated {c : Compilation} {v : ValidatedCompilation} :
    (validated c).Gives v ↔ v = { compilation := c, report := c.validate } := by
  unfold validated
  dsimp only
  -- The journal has lines about errors and warnings, if there are any.
  split <;> split <;> simp only [gives_warn_bind, gives_pure]

theorem eq_emptyResult {v : ValidatedCompilation} (hempty : f.steps.isEmpty = true)
    (h : (a.compile f).2.Gives v) : v = emptyResult := by
  rw [compile, hempty, if_pos rfl, gives_info_bind, gives_pure] at h
  exact h

/-- **What a service gives** for a flow that has steps is the result of an alike flow, with the
findings on it. -/
theorem exists_alike {v : ValidatedCompilation} (hne : f.steps.isEmpty = false)
    (h : (a.compile f).2.Gives v) :
    ∃ g, f.Alike g ∧ g.Returns a.settings v.compilation ∧ v.report = v.compilation.validate := by
  rw [compile, hne, if_neg Bool.false_ne_true] at h
  dsimp only at h
  split at h
  · -- The flow cannot be prepared.
    exact absurd h nofun
  · rename_i g hg
    simp only [gives_bind] at h
    obtain ⟨-, -, c, hc, hv⟩ := h
    rw [gives_validated] at hv
    subst hv
    refine ⟨g, alike_of_prepare hg, ?_, rfl⟩
    unfold compileFlow at hc
    split at hc
    · exact .plain hc
    · exact .traced _ hc

end CompileService

/-! ## §4 Services with different forms -/

/-- Two results for a flow have the same shape: they agree in all but the texts of forms. These are
in the prompts of nodes whose steps name a form, and in the registrations of forms. -/
structure ValidatedCompilation.SameShape (f : Flow) (v w : ValidatedCompilation) : Prop where
  ids : Table.names w.compilation.workflow.nodes = Table.names v.compilation.workflow.nodes
  nodes : ∀ id n m, Table.get? v.compilation.workflow.nodes id = some n →
    Table.get? w.compilation.workflow.nodes id = some m →
      m = n ∨ ∃ t, f.lastActionable? id = some t ∧ t.namesForm = true ∧
        ∃ prompt, m = n.withPrompt prompt
  edges : w.compilation.workflow.edges = v.compilation.workflow.edges
  entryId : w.compilation.entryId = v.compilation.entryId
  firstMessage : w.compilation.firstMessage = v.compilation.firstMessage
  dropped : w.compilation.dropped = v.compilation.dropped
  facts : w.compilation.facts = { v.compilation.facts with forms := w.compilation.facts.forms }
  formIds : w.compilation.facts.forms.map (·.formId) = v.compilation.facts.forms.map (·.formId)
  report : w.report = v.report

theorem ValidatedCompilation.SameShape.refl (f : Flow) (v : ValidatedCompilation) :
    v.SameShape f v :=
  ⟨rfl, fun _ _ _ hn hm => Or.inl (Option.some.inj (hm.symm.trans hn)), rfl, rfl, rfl, rfl, rfl, rfl,
    rfl⟩

/-- Facts that are equal apart from the texts of forms. -/
theorem Facts.of_mute {facts facts' : Facts} (h : facts'.mute = facts.mute) :
    facts' = { facts with forms := facts'.forms } ∧
      facts'.forms.map (·.formId) = facts.forms.map (·.formId) := by
  have hids : ∀ facts : Facts, facts.forms.map (·.formId) = facts.mute.forms.map (·.formId) := by
    intro facts
    rw [mute, List.map_map]
    rfl
  refine ⟨?_, by rw [hids facts', h, ← hids facts]⟩
  obtain ⟨transfer, appointment, form, forms, webhooks, audios, toolIds⟩ := facts
  obtain ⟨transfer', appointment', form', forms', webhooks', audios', toolIds'⟩ := facts'
  simp only [mute, mk.injEq] at h ⊢
  obtain ⟨rfl, rfl, rfl, -, rfl, rfl, rfl⟩ := h
  simp

namespace Flow

variable {f g g' : Flow} {s : Settings} {v w : ValidatedCompilation}

/-- **Results of alike flows have the same shape.** -/
theorem sameShape_of_alike (h : f.Alike g) (h' : f.Alike g') (hv : g.Returns s v.compilation)
    (hw : g'.Returns s w.compilation) (hreport : v.report = v.compilation.validate)
    (hreport' : w.report = w.compilation.validate) : v.SameShape f w := by
  have halike : g.Alike g' := h.join h'
  obtain ⟨p, hp⟩ := hv.passes
  obtain ⟨p', hp'⟩ := hw.passes
  have hmute := halike.mute_result p p' s
  have hworkflow : v.compilation.workflow = (p.result s).workflow := by rw [hp]
  have hworkflow' : w.compilation.workflow = (p'.result s).workflow := by rw [hp']
  have hmutes : w.compilation.workflow.mute = v.compilation.workflow.mute := by
    rw [hworkflow, hworkflow']
    exact (congrArg Compilation.workflow hmute :)
  have hfacts : w.compilation.facts.mute = v.compilation.facts.mute := by
    rw [hp, hp']
    exact (congrArg Compilation.facts hmute :)
  obtain ⟨hsame, hids⟩ := Facts.of_mute hfacts
  refine ⟨?_, fun id n m hn hm => ?_, ?_, ?_, ?_, ?_, hsame, hids, ?_⟩
  -- Ids and nodes.
  · rw [← w.compilation.workflow.names_mute, hmutes, Workflow.names_mute]
  · rw [hworkflow] at hn
    rw [hworkflow'] at hm
    exact Alike.node_cases h h' p p' s hn hm
  -- Edges, and what else is returned.
  · exact (congrArg Workflow.edges hmutes :)
  · rw [hp, hp']
    exact (congrArg Compilation.entryId hmute :)
  · rw [hp, hp']
    exact (congrArg Compilation.firstMessage hmute :)
  · rw [hp, hp']
    exact (congrArg Compilation.dropped hmute :)
  · rw [hreport, hreport', Compilation.validate_congr hmutes]

/-- A lookup that finds nothing leaves a flow as it is. -/
theorem gives_enrich_self {lookup : FormLookup} (h : ∀ id form, lookup id ≠ .ok (some form))
    (f : Flow) : (f.enrich lookup).Gives f := by
  have hstep : ∀ t : Step, (t.enrich? lookup).Gives none := by
    intro t
    unfold Step.enrich?
    dsimp only
    split
    · exact gives_pure.2 rfl
    · split
      · rw [gives_warn_bind, gives_pure]
      · rw [gives_warn_bind, gives_pure]
      · rename_i form hfound
        exact absurd hfound (h _ form)
  have hsteps : (f.steps.mapM fun t : Step => t.enrich lookup).Gives f.steps := by
    rw [gives_mapM, List.forall₂_same]
    intro t _
    exact gives_bind.2 ⟨none, hstep t, gives_pure.2 rfl⟩
  exact gives_bind.2 ⟨f.steps, hsteps, gives_pure.2 rfl⟩

end Flow

namespace CompileService

/-- A lookup that finds nothing is as good as none. -/
theorem compile_of_nothing {lookup : FormLookup} (h : ∀ id form, lookup id ≠ .ok (some form))
    (settings : Settings) (traces : Option TraceStore) (f : Flow) :
    let found : CompileService := { settings, traces, lookup := some lookup }
    let without : CompileService := { settings, traces, lookup := none }
    (found.compile f).2.outcome = (without.compile f).2.outcome ∧
      (found.compile f).1.traces = (without.compile f).1.traces := by
  intro found without
  have hfound : (found.prepare f).outcome = .ok f := Flow.gives_enrich_self h f
  have hwithout : (without.prepare f).outcome = .ok f := rfl
  unfold compile
  split
  · exact ⟨rfl, rfl⟩
  · simp only [hfound, hwithout, outcome_bind]
    cases traces <;> exact ⟨rfl, rfl⟩

end CompileService

/-- **Stored forms do not shape workflows.** With the same settings, results of services that look
up different forms, or none, have the same shape. A service that finds no form at all, because
every lookup fails or comes back empty, gives what a service without a lookup gives. -/
theorem stored_forms_inert (f : Flow) (settings : Settings) :
    (∀ (a b : CompileService) v w, a.settings = settings → b.settings = settings →
      (a.compile f).2.Gives v → (b.compile f).2.Gives w → v.SameShape f w) ∧
    ∀ (lookup : FormLookup) (traces : Option TraceStore),
      (∀ id form, lookup id ≠ .ok (some form)) →
      let found : CompileService := { settings, traces, lookup := some lookup }
      let without : CompileService := { settings, traces, lookup := none }
      (found.compile f).2.outcome = (without.compile f).2.outcome ∧
        (found.compile f).1.traces = (without.compile f).1.traces := by
  constructor
  · intro a b v w ha hb hv hw
    cases hempty : f.steps.isEmpty with
    | true =>
      obtain rfl := CompileService.eq_emptyResult hempty hv
      obtain rfl := CompileService.eq_emptyResult hempty hw
      exact .refl f _
    | false =>
      obtain ⟨g, hg, hreturns, hreport⟩ := CompileService.exists_alike hempty hv
      obtain ⟨g', hg', hreturns', hreport'⟩ := CompileService.exists_alike hempty hw
      rw [ha] at hreturns
      rw [hb] at hreturns'
      exact Flow.sameShape_of_alike hg hg' hreturns hreturns' hreport hreport'
  · intro lookup traces h
    exact CompileService.compile_of_nothing h settings traces f

/-- A flow that names a form by its id only. -/
def survey : Flow where
  steps := [
    { id := "f", type := some "form", data := { config := [("formId", .str "feedback-0001")] } },
    { id := "b", type := some "end" }]
  links := [{ id := "e1", source := "f", target := "b" }]

/-- A place where the form of the survey is found. -/
def feedbackShelf : FormShelf := .ofForms [{ id := "feedback-0001", name := "Feedback" }]

/-- With its form and without, the survey has the same shape, although the form is registered under
different names. If looking it up fails, it is as if there were no place to look it up. -/
theorem stored_forms_inert_survey :
    ∃ v w, (CompileService.compile {} survey).2.Gives v ∧
      (CompileService.compile { lookup := some feedbackShelf.lookup } survey).2.Gives w ∧
      v.SameShape survey w ∧
      v.compilation.facts.forms.map (·.formName) = ["Data Collection"] ∧
      w.compilation.facts.forms.map (·.formName) = ["Feedback"] ∧
      (CompileService.compile { lookup := some fun _ => .error "timeout" } survey).2.outcome =
        (CompileService.compile {} survey).2.outcome := by
  obtain ⟨v, hv⟩ := gives_of_succeeds (a := (CompileService.compile {} survey).2)
    (by decide +kernel)
  obtain ⟨w, hw⟩ := gives_of_succeeds
    (a := (CompileService.compile { lookup := some feedbackShelf.lookup } survey).2)
    (by decide +kernel)
  have hname : (CompileService.compile {} survey).2.outcome.map
      (fun v => v.compilation.facts.forms.map (·.formName)) = .ok ["Data Collection"] := by
    decide +kernel
  have hname' : (CompileService.compile { lookup := some feedbackShelf.lookup } survey).2.outcome.map
      (fun w => w.compilation.facts.forms.map (·.formName)) = .ok ["Feedback"] := by
    decide +kernel
  rw [hv] at hname
  rw [hw] at hname'
  obtain ⟨hshape, hnothing⟩ := stored_forms_inert survey {}
  exact ⟨v, w, hv, hw, hshape _ _ v w rfl rfl hv hw, Except.ok.inj hname, Except.ok.inj hname',
    (hnothing (fun _ => .error "timeout") none (by simp)).1⟩

end CallFlow
