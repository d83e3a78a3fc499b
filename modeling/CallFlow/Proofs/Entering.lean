import CallFlow.Proofs.Registration
import CallFlow.Proofs.Scripts
import CallFlow.Proofs.StartNode

/-!
# Entering a Flow

The entry of a flow is looked for in three ways, and the first way that finds a step decides. What
it finds has a node, so the start is connected to the entry whenever there is one, whichever other
steps have the same id. The line that is announced to be spoken first is another matter. It is
read off the step that was found, which may be any declaration of its id, while the node under the
id belongs to the last one, or to the start.

## Sections

1. First elements
2. Three ways to an entry
3. The edge to the entry
4. Prompts of nodes
5. The first line
-/

namespace CallFlow

open Attempt

/-! ## §1 First elements -/

/-- The element is the first one of the list that has the property. -/
def IsFirst {α : Type} (P : α → Prop) (l : List α) (x : α) : Prop :=
  ∃ before after, l = before ++ x :: after ∧ P x ∧ ∀ y ∈ before, ¬ P y

theorem isFirst_iff_find? {α : Type} {P : α → Prop} [DecidablePred P] {l : List α} {x : α} :
    IsFirst P l x ↔ l.find? (fun y => decide (P y)) = some x := by
  rw [List.find?_eq_some_iff_append, IsFirst]
  simp only [decide_eq_true_eq, Bool.not_eq_true', decide_eq_false_iff_not]
  constructor
  · rintro ⟨before, after, hl, hx, hbefore⟩
    exact ⟨hx, before, after, hl, hbefore⟩
  · rintro ⟨hx, before, after, hl, hbefore⟩
    exact ⟨before, after, hl, hx, hbefore⟩

namespace Flow

variable {f : Flow} {s : Settings} {c : Compilation} {id : String}

/-! ## §2 Three ways to an entry -/

/-- The first link of the first trigger leads to the id, and the step of the id has a node. -/
def TriggersAt (f : Flow) (id : String) : Prop :=
  ∃ trigger link t, IsFirst (fun u : Step => u.category.isTrigger = true) f.steps trigger ∧
    IsFirst (fun l : Link => l.source = trigger.id) f.links link ∧ link.target = id ∧
    f.step? id = some t ∧ t.isActionable = true

/-- The step has a node, and no link leads to its id. -/
def IsRoot (f : Flow) (t : Step) : Prop :=
  t.isActionable = true ∧ ∀ l ∈ f.links, l.target ≠ t.id

instance (f : Flow) : DecidablePred f.IsRoot := fun t =>
  inferInstanceAs (Decidable (t.isActionable = true ∧ ∀ l ∈ f.links, l.target ≠ t.id))

/-- **The ways to an entry in their order.** A later way counts only where the earlier ones lead
nowhere. -/
inductive EntersAt (f : Flow) : String → Prop where
  | triggered {id : String} (h : f.TriggersAt id) : EntersAt f id
  | root {t : Step} (htriggered : ∀ id, ¬ f.TriggersAt id) (h : IsFirst f.IsRoot f.steps t) :
      EntersAt f t.id
  | firstActionable {t : Step} (htriggered : ∀ id, ¬ f.TriggersAt id)
      (hroot : ∀ u ∈ f.steps, ¬ f.IsRoot u)
      (h : IsFirst (fun u : Step => u.isActionable = true) f.steps t) : EntersAt f t.id

theorem firstTrigger?_eq_some {trigger : Step} :
    f.firstTrigger? = some trigger ↔
      IsFirst (fun u : Step => u.category.isTrigger = true) f.steps trigger := by
  simp [isFirst_iff_find?, firstTrigger?]

theorem triggered?_eq_some {t : Step} :
    f.triggered? = some t ↔ f.TriggersAt t.id ∧ f.step? t.id = some t := by
  simp only [triggered?, Option.bind_eq_bind, Option.bind_eq_some_iff,
    Option.filter_eq_some_iff, firstTrigger?_eq_some, TriggersAt, isFirst_iff_find?]
  constructor
  · rintro ⟨trigger, htrigger, link, hlink, ht, hactionable⟩
    obtain ⟨-, hid⟩ := mem_of_step?_eq_some ht
    exact ⟨⟨trigger, link, t, htrigger, hlink, hid.symm, hid ▸ ht, hactionable⟩, hid ▸ ht⟩
  · rintro ⟨⟨trigger, link, t', htrigger, hlink, hid, ht', hactionable⟩, ht⟩
    obtain rfl := Option.some.inj (ht.symm.trans ht')
    exact ⟨trigger, htrigger, link, hlink, hid ▸ ht, hactionable⟩

theorem triggersAt_iff : f.TriggersAt id ↔ ∃ t, f.triggered? = some t ∧ t.id = id := by
  constructor
  · intro h
    have hfound := h
    obtain ⟨-, -, t, -, -, -, ht, -⟩ := hfound
    obtain ⟨-, rfl⟩ := mem_of_step?_eq_some ht
    exact ⟨t, triggered?_eq_some.2 ⟨h, ht⟩, rfl⟩
  · rintro ⟨t, ht, rfl⟩
    exact (triggered?_eq_some.1 ht).1

theorem root?_eq_some {t : Step} : f.root? = some t ↔ IsFirst f.IsRoot f.steps t := by
  have hroot : (fun u : Step => u.isActionable && !f.links.any (·.target = u.id)) =
      fun u => decide (f.IsRoot u) := by
    funext u
    rw [Bool.eq_iff_iff, decide_eq_true_iff]
    simp [IsRoot]
  rw [isFirst_iff_find?, root?, hroot]

theorem firstActionable?_eq_some {t : Step} :
    f.firstActionable? = some t ↔
      IsFirst (fun u : Step => u.isActionable = true) f.steps t := by
  simp [isFirst_iff_find?, firstActionable?]

theorem triggered?_eq_none : f.triggered? = none ↔ ∀ id, ¬ f.TriggersAt id := by
  simp [triggersAt_iff, Option.eq_none_iff_forall_ne_some]

theorem root?_eq_none : f.root? = none ↔ ∀ u ∈ f.steps, ¬ f.IsRoot u := by
  simp [root?, IsRoot]

/-- **The ways to an entry are those of the choice.** -/
theorem entersAt_iff : f.EntersAt id ↔ ∃ t, f.chooseEntry.1 = some t ∧ t.id = id := by
  constructor
  · intro h
    rw [chooseEntry_fst]
    cases h with
    | triggered h =>
      obtain ⟨t, ht, hid⟩ := triggersAt_iff.1 h
      exact ⟨t, by simp [ht], hid⟩
    | @root t htriggered h =>
      have hnone := triggered?_eq_none.2 htriggered
      exact ⟨t, by simp [hnone, root?_eq_some.2 h], rfl⟩
    | @firstActionable t htriggered hroot h =>
      have hnone := triggered?_eq_none.2 htriggered
      have hnoRoot := root?_eq_none.2 hroot
      exact ⟨t, by simp [hnone, hnoRoot, firstActionable?_eq_some.2 h], rfl⟩
  · rintro ⟨t, ht, rfl⟩
    rw [chooseEntry_fst, Option.or_eq_some_iff, Option.or_eq_some_iff] at ht
    rcases ht with (htriggered | ⟨hnone, hroot⟩) | ⟨hnone, hfirst⟩
    · exact .triggered (triggersAt_iff.2 ⟨t, htriggered, rfl⟩)
    · exact .root (triggered?_eq_none.1 hnone) (root?_eq_some.1 hroot)
    · obtain ⟨hnone, hnoRoot⟩ := Option.or_eq_none_iff.1 hnone
      exact .firstActionable (triggered?_eq_none.1 hnone) (root?_eq_none.1 hnoRoot)
        (firstActionable?_eq_some.1 hfirst)

/-- Without an entry all steps are triggers or branches. -/
theorem chooseEntry_eq_none :
    f.chooseEntry.1 = none ↔
      ∀ t ∈ f.steps, t.category.isTrigger = true ∨ t.category.isBranch = true := by
  have hstructural : ∀ t : Step, t.isActionable = false ↔
      t.category.isTrigger = true ∨ t.category.isBranch = true := by
    intro t
    simp [Step.isActionable, Category.isStructural, or_iff_not_imp_left]
  constructor
  · intro hnone t ht
    rw [← hstructural, ← Bool.not_eq_true]
    intro hactionable
    have hhas : f.HasActionable t.id := ⟨t, ht, rfl, hactionable⟩
    obtain ⟨entry, hentry⟩ := exists_chooseEntry hhas
    rw [hnone] at hentry
    cases hentry
  · intro hall
    rw [Option.eq_none_iff_forall_ne_some]
    intro t ht
    obtain ⟨hmem, hactionable⟩ := of_chooseEntry ht
    have hnot := (hstructural t).2 (hall t hmem)
    rw [hactionable] at hnot
    cases hnot

/-! ## §3 The edge to the entry -/

theorem Passes.stepId_entry (p : Passes f) : p.entry.stepId = f.chooseEntry.1.map Step.id := by
  rw [Entry.stepId, (of_entry p.entry_gives).1]

/-- The start lists the edge to the entry before all others. -/
theorem Passes.edgeOrder_start (p : Passes f) (hs : ¬ Assembly.LooksGenerated s.startEdgeId)
    (hne : s.startEdgeId.isEmpty = false) (hid : p.entry.stepId = some id) :
    ∃ start, Table.get? (p.result s).workflow.nodes s.startNodeId = some start ∧
      start.edgeOrder.head? = some s.startEdgeId := by
  have hintact := p.intact_result s hs
  obtain ⟨start, hstart⟩ := Option.isSome_iff_exists.1 hintact.has_start
  have hlisted : start.edgeOrder = (p.result s).workflow.idsFrom s.startNodeId :=
    hintact.listed _ ((p.get?_node_iff s).1 hstart)
  refine ⟨start, hstart, ?_⟩
  -- The edge to the entry was added first, and it leaves the start.
  rw [hlisted, Workflow.idsFrom, p.edges_result s hs hne, p.edges_entered s hne, hid]
  simp [startEdge, Table.names]

/-- **The entry exists and is the one that comes first.** There is none just in case all steps are
triggers or branches, and then there is no edge to it. Otherwise it is where the flow is entered by
the first way that leads anywhere; it has a node, the edge under the id of the settings leads to
it from the start without a condition, and the start lists this edge before all others. -/
theorem entry_by_priority (f : Flow) (s : Settings)
    (hs : ¬ Assembly.LooksGenerated s.startEdgeId) (hne : s.startEdgeId.isEmpty = false)
    {c : Compilation} (h : f.Returns s c) :
    (c.entryId = none ↔
      ∀ t ∈ f.steps, t.category.isTrigger = true ∨ t.category.isBranch = true) ∧
    (c.entryId = none → Table.has c.workflow.edges s.startEdgeId = false) ∧
    (∀ id, c.entryId = some id ↔ f.EntersAt id) ∧
    ∀ id, c.entryId = some id →
      Table.has c.workflow.nodes id = true ∧
      Table.get? c.workflow.edges s.startEdgeId =
        some { source := s.startNodeId, target := id, condition := .unconditional } ∧
      ∃ start, Table.get? c.workflow.nodes s.startNodeId = some start ∧
        start.edgeOrder.head? = some s.startEdgeId := by
  obtain ⟨p, hp⟩ := h.passes
  have hworkflow : c.workflow = (p.result s).workflow := by rw [hp]
  have hentry : c.entryId = p.entry.stepId := by rw [hp]; rfl
  have hedge := p.get?_startEdge s hs hne
  rw [hentry, hworkflow]
  refine ⟨?_, fun hnone => ?_, fun id => ?_, fun id hid => ⟨?_, ?_, ?_⟩⟩
  · rw [p.stepId_entry, Option.map_eq_none_iff, chooseEntry_eq_none]
  · rw [Table.has, hedge, hnone]
    rfl
  · rw [p.stepId_entry, Option.map_eq_some_iff, entersAt_iff]
  · rw [p.has_result]
    exact Or.inr (hasActionable_of_entry p.entry_gives hid)
  · rw [hedge, hid]
    rfl
  · exact p.edgeOrder_start hs hne hid

/-- The tangle is entered at the id that its trigger leads to, though this is declared twice. -/
theorem entry_by_priority_tangle :
    ¬ Assembly.LooksGenerated Settings.defaultStartEdgeId ∧
      Settings.defaultStartEdgeId.isEmpty = false ∧
      ∃ c, tangle.Returns {} c ∧ c.entryId = some "a" ∧ Table.has c.workflow.nodes "a" = true := by
  have hid : ¬ Assembly.LooksGenerated Settings.defaultStartEdgeId := by decide +kernel
  obtain ⟨c, hgives⟩ := gives_of_succeeds (a := tangle.compile {}) (by decide +kernel)
  have hreturns : tangle.Returns {} c := .plain hgives
  have htriggers : tangle.TriggersAt "a" :=
    ⟨_, _, _, ⟨[], _, rfl, by decide, nofun⟩, ⟨[], _, rfl, rfl, nofun⟩, rfl, rfl, by decide⟩
  obtain ⟨-, -, hentry, hconnected⟩ := entry_by_priority tangle {} hid rfl hreturns
  have ha := (hentry "a").2 (.triggered htriggers)
  exact ⟨hid, rfl, c, hreturns, ha, (hconnected "a" ha).1⟩

end Flow

/-! ## §4 Prompts of nodes -/

/-- The node of the id is scripted and has the prompt. -/
def Workflow.HasPrompt (w : Workflow) (id prompt : String) : Prop :=
  ∃ n script, Table.get? w.nodes id = some n ∧ n.kind = .script script ∧ script.prompt = prompt

/-- A step passes its prompt on to the node that it makes. -/
theorem Step.Makes.hasPrompt_iff {t : Step} {n : Node} (h : t.Makes n) {prompt : String} :
    t.HasPrompt prompt ↔ ∃ script, n.kind = .script script ∧ script.prompt = prompt := by
  constructor
  · rintro ⟨c, node, script, hc, hnode, hkind, hprompt⟩
    have hmakes : t.Makes node := ⟨c, node, hc, hnode, rfl⟩
    exact ⟨script, (h.kind_unique hmakes).trans hkind, hprompt⟩
  · rintro ⟨script, hkind, hprompt⟩
    obtain ⟨c, node, hc, hnode, hbare⟩ := h
    have hsame : node.bare.kind = n.bare.kind := congrArg Node.kind hbare
    exact ⟨c, node, script, hc, hnode, hsame.trans hkind, hprompt⟩

namespace Flow

variable {f : Flow} {s : Settings} {c : Compilation} {id : String}

/-- **Prompts of a result** are those of the last steps with nodes. The start has none. -/
theorem Passes.hasPrompt_iff (p : Passes f) {prompt : String} :
    (p.result s).workflow.HasPrompt id prompt ↔
      id ≠ s.startNodeId ∧ ∃ t, f.lastActionable? id = some t ∧ t.HasPrompt prompt := by
  constructor
  · rintro ⟨n, script, hn, hkind, hprompt⟩
    have hid : id ≠ s.startNodeId := by
      rintro rfl
      have hstart := p.start_result s hn
      rw [hkind] at hstart
      cases hstart
    obtain ⟨t, ht, hmakes⟩ := p.exists_makes s hid hn
    exact ⟨hid, t, ht, hmakes.hasPrompt_iff.2 ⟨script, hkind, hprompt⟩⟩
  · rintro ⟨hid, t, ht, hprompt⟩
    rcases p.node_cases s hid with ⟨t', n, ht', hn, hmakes⟩ | ⟨hnone, -⟩
    · obtain rfl := Option.some.inj (ht.symm.trans ht')
      obtain ⟨script, hkind, hscript⟩ := hmakes.hasPrompt_iff.1 hprompt
      exact ⟨n, script, hn, hkind, hscript⟩
    · exact absurd (ht.symm.trans hnone) nofun

/-! ## §5 The first line -/

/-- What is returned about the entry is read off the step that was chosen. -/
theorem Returns.of_entry (h : f.Returns s c) :
    c.entryId = f.chooseEntry.1.map Step.id ∧
      c.firstMessage = f.chooseEntry.1.bind firstMessage? := by
  obtain ⟨p, hp⟩ := h.passes
  have hentry : c.entryId = p.entry.stepId := by rw [hp]; rfl
  have hmessage : c.firstMessage = p.entry.firstMessage := by rw [hp]; rfl
  exact ⟨hentry.trans p.stepId_entry, hmessage.trans (Flow.of_entry p.entry_gives).2⟩

theorem firstMessage?_eq_some {t : Step} {text : String} :
    firstMessage? t = some text ↔
      t.category = .message ∧ t.setting "message" = .str text ∧ text.isEmpty = false := by
  constructor
  · intro h
    unfold firstMessage? at h
    split at h
    · rename_i line hcategory hsetting
      split at h
      · cases h
      · rename_i hgiven
        obtain rfl := Option.some.inj h
        exact ⟨hcategory, hsetting, Bool.eq_false_iff.2 hgiven⟩
    · cases h
  · rintro ⟨hcategory, hsetting, hgiven⟩
    unfold firstMessage?
    rw [hcategory, hsetting]
    show (if text.isEmpty then none else some text) = some text
    rw [hgiven, if_neg Bool.false_ne_true]

/-- The step that a first line is read off speaks it. -/
theorem hasPrompt_of_firstMessage? {t : Step} {text : String} (h : firstMessage? t = some text) :
    t.HasPrompt (Prompt.sayAndProceed text) := by
  obtain ⟨hcategory, hsetting, hgiven⟩ := firstMessage?_eq_some.1 h
  have hfirst : Json.firstGiven? [t.setting "message"] = some (.str text) := by
    simp [Json.firstGiven?, hsetting, Json.isGiven, hgiven]
  have hline : t.settingText ["message"] "Hello" = text := by
    unfold Step.settingText Json.displayFirst
    rw [List.map_singleton, hfirst]
    rfl
  exact hline ▸ Step.hasPrompt_message hcategory

/-- A step that a trigger leads to is the last one with its id, and so is every step of a flow
whose ids are distinct. -/
theorem lastActionable?_of_chooseEntry {t : Step} (ht : f.chooseEntry.1 = some t)
    (h : f.TriggersAt t.id ∨ f.DistinctIds) : f.lastActionable? t.id = some t := by
  obtain ⟨hmem, hactionable⟩ := of_chooseEntry ht
  refine lastActionable?_of_step? ?_ hactionable
  rcases h with htriggers | hdistinct
  · obtain ⟨t', ht', -⟩ := triggersAt_iff.1 htriggers
    rw [chooseEntry_fst, ht', Option.some_or, Option.some_or] at ht
    obtain rfl := Option.some.inj ht
    exact (triggered?_eq_some.1 ht').2
  · exact hdistinct.step?_eq_some.2 ⟨hmem, rfl⟩

/-- **When the first line is spoken at the entry.** The first line that is announced is the message
of the chosen step, which speaks it. The node under its id speaks it just in case the id is not
that of the start and the last step with a node under this id has the same script. This is so if
the chosen step is not overridden, as it cannot be by another step if a trigger leads to it or if
ids are distinct. -/
theorem first_line_spoken_iff (f : Flow) (s : Settings) {c : Compilation} (h : f.Returns s c)
    {text : String} (hmessage : c.firstMessage = some text) :
    ∃ t, f.chooseEntry.1 = some t ∧ t.category = .message ∧ t.setting "message" = .str text ∧
      c.entryId = some t.id ∧
      (c.workflow.HasPrompt t.id (Prompt.sayAndProceed text) ↔
        t.id ≠ s.startNodeId ∧
          ∃ last, f.lastActionable? t.id = some last ∧
            last.HasPrompt (Prompt.sayAndProceed text)) ∧
      (¬ f.Overridden s.startNodeId t →
        c.workflow.HasPrompt t.id (Prompt.sayAndProceed text)) ∧
      (t.id ≠ s.startNodeId → f.TriggersAt t.id ∨ f.DistinctIds →
        c.workflow.HasPrompt t.id (Prompt.sayAndProceed text)) := by
  obtain ⟨hentry, hfirst⟩ := h.of_entry
  rw [hfirst] at hmessage
  obtain ⟨t, ht, htext⟩ := Option.bind_eq_some_iff.1 hmessage
  obtain ⟨hcategory, hsetting, -⟩ := firstMessage?_eq_some.1 htext
  have hprompts : c.workflow.HasPrompt t.id (Prompt.sayAndProceed text) ↔
      t.id ≠ s.startNodeId ∧
        ∃ last, f.lastActionable? t.id = some last ∧
          last.HasPrompt (Prompt.sayAndProceed text) := by
    obtain ⟨p, hp⟩ := h.passes
    rw [hp]
    exact p.hasPrompt_iff
  have hspoken : t.id ≠ s.startNodeId → f.lastActionable? t.id = some t →
      c.workflow.HasPrompt t.id (Prompt.sayAndProceed text) := fun hid hlast =>
    hprompts.2 ⟨hid, t, hlast, hasPrompt_of_firstMessage? htext⟩
  refine ⟨t, ht, hcategory, hsetting, by rw [hentry, ht]; rfl, hprompts, ?_, ?_⟩
  · intro hover
    obtain ⟨hid, hlast⟩ := not_or.1 hover
    exact hspoken hid (not_not.1 hlast)
  · intro hid hcase
    exact hspoken hid (lastActionable?_of_chooseEntry ht hcase)

/-- A flow that greets and ends. -/
def welcome : Flow where
  steps := [
    { id := "a", type := some "message", data := { config := [("message", .str "Hi")] } },
    { id := "b", type := some "end" }]
  links := [{ id := "e1", source := "a", target := "b" }]

/-- The first line of the flow is spoken at its entry. -/
theorem first_line_spoken_iff_welcome :
    ∃ c, welcome.Returns {} c ∧ c.firstMessage = some "Hi" ∧ c.entryId = some "a" ∧
      c.workflow.HasPrompt "a" (Prompt.sayAndProceed "Hi") := by
  obtain ⟨c, hgives⟩ := gives_of_succeeds (a := welcome.compile {}) (by decide +kernel)
  have hreturns : welcome.Returns {} c := .plain hgives
  have hmessage : c.firstMessage = some "Hi" := by
    rw [hreturns.of_entry.2]
    decide +kernel
  have hentry : c.entryId = some "a" := by
    rw [hreturns.of_entry.1]
    decide +kernel
  obtain ⟨t, -, -, -, ht, -, -, hspoken⟩ := first_line_spoken_iff welcome {} hreturns hmessage
  have hid : t.id = "a" := Option.some.inj (ht.symm.trans hentry)
  have hdistinct : welcome.DistinctIds := by
    unfold DistinctIds
    decide
  rw [hid] at hspoken
  exact ⟨c, hreturns, hmessage, hentry, hspoken (by decide) (Or.inr hdistinct)⟩

/-- A flow in which a second message has the id of the first. -/
def farewell : Flow where
  steps := [
    { id := "a", type := some "message", data := { config := [("message", .str "Hi")] } },
    { id := "a", type := some "message", data := { config := [("message", .str "Bye")] } }]

/-- One message is announced to be spoken first, and the entry speaks the other. -/
theorem farewell_first_line :
    ∃ c, farewell.Returns {} c ∧ c.firstMessage = some "Hi" ∧ c.entryId = some "a" ∧
      ¬ c.workflow.HasPrompt "a" (Prompt.sayAndProceed "Hi") := by
  obtain ⟨c, hgives⟩ := gives_of_succeeds (a := farewell.compile {}) (by decide +kernel)
  have hreturns : farewell.Returns {} c := .plain hgives
  refine ⟨c, hreturns, ?_, ?_, ?_⟩
  · rw [hreturns.of_entry.2]
    decide +kernel
  · rw [hreturns.of_entry.1]
    decide +kernel
  · obtain ⟨p, hp⟩ := hreturns.passes
    rw [hp]
    show ¬ (p.result {}).workflow.HasPrompt "a" _
    rw [p.hasPrompt_iff]
    rintro ⟨-, t, hlast, hprompt⟩
    have hsecond : firstMessage? t = some "Bye" := by
      have hsame : (farewell.lastActionable? "a").bind firstMessage? = some "Bye" := by
        decide +kernel
      rw [hlast, Option.bind_some] at hsame
      exact hsame
    have hlines := hprompt.unique (hasPrompt_of_firstMessage? hsecond)
    exact absurd (Prompt.sayAndProceed_injective hlines) (by decide)

end Flow

end CallFlow
