import CallFlow.Proofs.Assembling

/-!
# The Passes of a Compilation

A compilation finds the entry of the flow, compiles its steps and works out the connections
that its links stand for. None of this depends on the settings, and a flow that is compiled at
all goes through these passes: they are collected in `Passes`. What is left is to assemble the
results, and that is done by the plain functions `holdAll`, `enter` and `placeAll`.

## Sections

1. Compiling the steps
2. Connecting the links
3. Passes
4. Results
5. Traced compilations
-/

namespace CallFlow

open Attempt

/-! ## §1 Compiling the steps -/

/-- The assembly after the nodes of compiled steps are held, in order. -/
def Assembly.holdAll (a : Assembly) (compiled : List (Step × Compiled)) : Assembly :=
  compiled.foldl (fun a p => a.hold p.1.id p.2) a

/-- What every held node keeps, a run of them keeps. -/
theorem Assembly.holdAll_invariant {P : Assembly → Prop} {compiled : List (Step × Compiled)}
    (hstep : ∀ a, ∀ q ∈ compiled, P a → P (a.hold q.1.id q.2)) {a : Assembly} (h : P a) :
    P (a.holdAll compiled) := by
  induction compiled generalizing a with
  | nil => exact h
  | cons q rest ih =>
    exact ih (fun a q hq => hstep a q (List.mem_cons_of_mem _ hq))
      (hstep a q (List.mem_cons_self ..) h)

/-- Holding nodes touches nothing but the nodes. -/
theorem Assembly.holdAll_frame (a : Assembly) (compiled : List (Step × Compiled)) :
    a.holdAll compiled = { a with nodes := (a.holdAll compiled).nodes } := by
  refine holdAll_invariant (P := fun b => b = { a with nodes := b.nodes }) ?_ rfl
  intro b q _ h
  rw [hold_frame b q.1.id q.2, h]

@[simp] theorem Assembly.holdAll_startNodeId (a : Assembly) (compiled : List (Step × Compiled)) :
    (a.holdAll compiled).startNodeId = a.startNodeId := by
  rw [holdAll_frame]

@[simp] theorem Assembly.holdAll_strict (a : Assembly) (compiled : List (Step × Compiled)) :
    (a.holdAll compiled).strict = a.strict := by
  rw [holdAll_frame]

/-- The assembly begins with the start node, and holding nodes does not take it away. -/
theorem Assembly.has_start_holdAll (s : Settings) (compiled : List (Step × Compiled)) :
    Table.has ((ofSettings s).holdAll compiled).nodes s.startNodeId = true := by
  refine holdAll_invariant (P := fun a => Table.has a.nodes s.startNodeId = true) ?_ ?_
  · intro a q _ h
    exact has_hold h q.1.id q.2
  · simp [ofSettings, begin, Table.has, Table.get?]

namespace Flow

variable {f : Flow}

/-- The results of compiling the steps of a flow, one for each. -/
def CompilesTo (f : Flow) (compiled : List Compiled) : Prop :=
  List.Forall₂ (fun s c => s.compile.Gives c) f.steps compiled

theorem gives_foldlM_compileStep {steps : List Step} {state state' : Facts × Assembly} :
    (steps.foldlM compileStep state).Gives state' ↔
      ∃ compiled, List.Forall₂ (fun s c => s.compile.Gives c) steps compiled ∧
        state' = (compiled.foldl Facts.absorb state.1,
          state.2.holdAll (steps.zip compiled)) := by
  induction steps generalizing state with
  | nil => simp [Assembly.holdAll, List.forall₂_nil_left_iff]
  | cons s rest ih =>
    simp only [List.foldlM_cons, gives_bind, Assembly.gives_compileStep, ih,
      List.forall₂_cons_left_iff]
    constructor
    · rintro ⟨_, ⟨c, hc, rfl⟩, compiled, hrest, rfl⟩
      exact ⟨c :: compiled, ⟨c, compiled, hc, hrest, rfl⟩, rfl⟩
    · rintro ⟨_, ⟨c, compiled, hc, hrest, rfl⟩, rfl⟩
      exact ⟨_, ⟨c, hc, rfl⟩, compiled, hrest, rfl⟩

/-- Compiling the steps absorbs the facts of each and holds the node of each. -/
theorem gives_compileSteps {a : Assembly} {state : Facts × Assembly} :
    (f.compileSteps a).Gives state ↔
      ∃ compiled, f.CompilesTo compiled ∧
        state = (compiled.foldl Facts.absorb {}, a.holdAll (f.steps.zip compiled)) :=
  gives_foldlM_compileStep

/-! ## §2 Connecting the links -/

/-- The connections that the links of a flow stand for, link by link. -/
def CallsFor (f : Flow) (called : List (List Connection)) : Prop :=
  List.Forall₂ (fun l cs => (f.connectionsOf l).Gives cs) f.links called

/-- Links are connected by making all their connections in one run. -/
theorem outcome_foldlM_connectLink {links : List Link} {called : List (List Connection)}
    (h : List.Forall₂ (fun l cs => (f.connectionsOf l).Gives cs) links called) (a : Assembly) :
    (links.foldlM f.connectLink a).outcome = (called.flatten.foldlM connectOne a).outcome := by
  induction h generalizing a with
  | nil => rfl
  | @cons l cs rest more hl _ ih =>
    -- The connections of the first link are made before the next link is expanded.
    have hfirst : (f.connectLink a l).outcome = (cs.foldlM connectOne a).outcome :=
      outcome_bind_of_gives hl _
    simp only [List.foldlM_cons, List.flatten_cons, List.foldlM_append, outcome_bind, hfirst]
    exact bind_congr fun b => ih b

theorem callsFor_of_gives {links : List Link} {a b : Assembly}
    (h : (links.foldlM f.connectLink a).Gives b) :
    ∃ called, List.Forall₂ (fun l cs => (f.connectionsOf l).Gives cs) links called := by
  induction links generalizing a with
  | nil => exact ⟨[], .nil⟩
  | cons l rest ih =>
    rw [List.foldlM_cons, gives_bind] at h
    obtain ⟨a', hl, hrest⟩ := h
    obtain ⟨called, hcalled⟩ := ih hrest
    obtain ⟨cs, hcs, -⟩ := gives_bind.1 hl
    exact ⟨cs :: called, .cons hcs hcalled⟩

/-! ## §3 Passes -/

/-- What the passes before the assembly find in a flow. -/
structure Passes (f : Flow) where
  entry : Entry
  compiled : List Compiled
  called : List (List Connection)
  entry_gives : f.entry.Gives entry
  compiles : f.CompilesTo compiled
  calls : f.CallsFor called

namespace Passes

variable (p : Passes f) (s : Settings)

/-- All connections, in order. -/
def plan : List Connection := p.called.flatten

/-- The assembly with all nodes in place, before any connection. -/
def held : Assembly := (Assembly.ofSettings s).holdAll (f.steps.zip p.compiled)

/-- The assembly with the entry connected. -/
def entered : Assembly := (p.held s).enter p.entry.stepId

/-- What is returned for an assembly. -/
def compilation (a : Assembly) : Compilation :=
  { workflow := a.workflow
    entryId := p.entry.stepId
    firstMessage := p.entry.firstMessage
    facts := p.compiled.foldl Facts.absorb {}
    dropped := a.dropped }

/-- What is returned if every connection is let through. -/
def result : Compilation := p.compilation ((p.entered s).placeAll p.plan)

end Passes

/-! ## §4 Results -/

theorem gives_forM_debug {α : Type} (text : α → String) (l : List α) :
    (l.forM fun x => debug (text x)).Gives () := by
  induction l with
  | nil => exact gives_pure.2 rfl
  | cons x rest ih =>
    show (debug (text x) >>= fun _ => rest.forM fun x => debug (text x)).Gives ()
    rw [gives_debug_bind]
    exact ih

/-- Writing about a result never fails. -/
theorem gives_summarize (c : Compilation) : (summarize c).Gives () := by
  have hdescribe : (describe c.workflow).Gives () := by
    unfold describe
    rw [gives_bind]
    exact ⟨(), gives_forM_debug _ _, gives_forM_debug _ _⟩
  unfold summarize
  rw [gives_info_bind]
  exact hdescribe

/-- After summarizing, a compilation is returned as it is. -/
theorem outcome_compile {s : Settings} (hne : f.steps.isEmpty = false) :
    (f.compile s).outcome = (f.assemble s).outcome := by
  unfold compile
  rw [hne, if_neg Bool.false_ne_true, info, outcome_write_bind, outcome_bind]
  cases h : (f.assemble s).outcome with
  | error e => rfl
  | ok c => exact outcome_bind_of_gives (gives_summarize c) _

namespace Passes

variable (p : Passes f) (s : Settings)

/-- Before the first edge the assembly differs from an empty one by its nodes. -/
theorem held_frame :
    p.held s = { Assembly.ofSettings s with nodes := (p.held s).nodes } :=
  Assembly.holdAll_frame _ _

@[simp] theorem held_edges : (p.held s).edges = [] := by rw [held_frame]; rfl

@[simp] theorem held_dropped : (p.held s).dropped = [] := by rw [held_frame]; rfl

@[simp] theorem held_made : (p.held s).made = 0 := by rw [held_frame]; rfl

@[simp] theorem held_strict : (p.held s).strict = s.strictDanglingEdges :=
  Assembly.holdAll_strict ..

@[simp] theorem held_startNodeId : (p.held s).startNodeId = s.startNodeId :=
  Assembly.holdAll_startNodeId ..

@[simp] theorem held_startEdgeId : (p.held s).startEdgeId = s.startEdgeId := by
  rw [held_frame]; rfl

/-- Conversations enter without a condition. -/
theorem condition_of_mem_entered {e : String × Edge} (he : e ∈ (p.entered s).edges) :
    e.2.condition = .unconditional := by
  unfold entered at he
  rcases (p.held s).enter_cases p.entry.stepId with hsame | ⟨id, -, hadded⟩
  · rw [hsame, held_edges] at he
    cases he
  · have hset : ∃ key, e ∈ Table.set (p.held s).edges key
        { source := (p.held s).startNodeId, target := id, condition := .unconditional } := by
      rw [hadded, Assembly.addGiven] at he
      split at he
      · exact ⟨_, he⟩
      · exact ⟨_, he⟩
    obtain ⟨key, hmem⟩ := hset
    rw [held_edges] at hmem
    rcases Table.mem_of_mem_set hmem with rfl | hnone
    · rfl
    · cases hnone

/-- Before the assembly is entered its start node is in place. -/
theorem has_start_held : Table.has (p.held s).nodes s.startNodeId = true :=
  Assembly.has_start_holdAll s _

@[simp] theorem names_nodes_entered :
    Table.names (p.entered s).nodes = Table.names (p.held s).nodes :=
  Assembly.names_nodes_enter ..

@[simp] theorem entered_startNodeId : (p.entered s).startNodeId = s.startNodeId := by
  rw [entered, Assembly.enter_frame, held_startNodeId]

@[simp] theorem entered_strict : (p.entered s).strict = s.strictDanglingEdges := by
  rw [entered, Assembly.enter_frame, held_strict]

@[simp] theorem entered_dropped : (p.entered s).dropped = [] := by
  rw [entered, Assembly.enter_frame, held_dropped]

/-- What is recorded as dropped is what the plan loses, in order. -/
theorem dropped_eq_filterMap : (p.result s).dropped = p.plan.filterMap (p.entered s).lost? := by
  show ((p.entered s).placeAll p.plan).dropped = _
  rw [Assembly.dropped_placeAll, entered_dropped, List.nil_append]

/-- What the passes leave to be done is the run of connections. -/
theorem outcome_assemble :
    (f.assemble s).outcome =
      p.compilation <$> (p.plan.foldlM connectOne (p.entered s)).outcome := by
  have hsteps : (f.compileSteps (Assembly.ofSettings s)).Gives
      (p.compiled.foldl Facts.absorb {}, p.held s) :=
    gives_compileSteps.2 ⟨p.compiled, p.compiles, rfl⟩
  have hhas : Table.has (p.held s).nodes (p.held s).startNodeId = true := by
    rw [held_startNodeId]
    exact p.has_start_held s
  obtain ⟨made, hstart⟩ := Assembly.gives_connectStart hhas p.entry.stepId
  have hlinks : (f.connectLinks (p.entered s)).outcome =
      (p.plan.foldlM connectOne (p.entered s)).outcome :=
    outcome_foldlM_connectLink p.calls _
  -- The first three passes go through, and none of them looks at the connections.
  unfold assemble
  rw [outcome_bind_of_gives p.entry_gives, outcome_bind_of_gives hsteps]
  dsimp only
  rw [outcome_bind_of_gives hstart, ← hlinks]
  exact outcome_map _ _

/-- **A flow that is compiled goes through the passes**, and what is returned is their result. -/
theorem of_gives {c : Compilation} (h : (f.compile s).Gives c) :
    f.steps.isEmpty = false ∧ ∃ p : Passes f, c = p.result s := by
  cases hne : f.steps.isEmpty with
  | true =>
    -- Without steps nothing is returned.
    unfold compile at h
    rw [hne, if_pos rfl] at h
    exact absurd h not_gives_fail
  | false =>
    have hassemble : (f.assemble s).Gives c := (outcome_compile hne).symm.trans h
    have hparts := hassemble
    simp only [assemble, gives_bind] at hparts
    obtain ⟨entry, hentry, _, hsteps, _, -, _, hlinks, -⟩ := hparts
    obtain ⟨compiled, hcompiled, -⟩ := gives_compileSteps.1 hsteps
    obtain ⟨called, hcalled⟩ := callsFor_of_gives hlinks
    let p : Passes f := ⟨entry, compiled, called, hentry, hcompiled, hcalled⟩
    -- The run of connections is all that can still go wrong, and it has not.
    have hrun : (p.compilation <$> (p.plan.foldlM connectOne (p.entered s))).Gives c := by
      rw [Gives, outcome_map, ← p.outcome_assemble s]
      exact hassemble
    obtain ⟨a, ha, rfl⟩ := gives_map.1 hrun
    exact ⟨rfl, p, by rw [Assembly.eq_placeAll_of_gives ha, result]⟩

end Passes

/-! ## §5 Traced compilations -/

/-- A compilation is returned for the flow, without a trace or with one in some store. -/
inductive Returns (f : Flow) (s : Settings) : Compilation → Prop where
  | plain {c : Compilation} (h : (f.compile s).Gives c) : Returns f s c
  | traced {c : Compilation} (store : TraceStore) (h : (f.compileTraced s store).2.Gives c) :
      Returns f s c

/-- A trace adds its id to what is returned and changes nothing else. -/
theorem gives_of_compileTraced {s : Settings} {store : TraceStore} {c : Compilation}
    (h : (f.compileTraced s store).2.Gives c) :
    ∃ c', (f.compile s).Gives c' ∧ c = { c' with traceId := c.traceId } := by
  unfold compileTraced at h
  split at h
  · -- The flow has no steps.
    exact absurd h not_gives_fail
  · split at h
    · -- The trace cannot be started.
      exact absurd h not_gives_fail
    · dsimp only at h
      split at h
      · rename_i e he
        exact absurd (he.symm.trans h) nofun
      · rename_i c' hc'
        split at h
        · -- The last events cannot be logged.
          exact absurd h nofun
        · exact ⟨c', hc', by rw [← Except.ok.inj h]⟩

/-- **Whatever is returned comes from the passes**, with a trace or without. -/
theorem Returns.passes {s : Settings} {c : Compilation} (h : f.Returns s c) :
    ∃ p : Passes f, c = { p.result s with traceId := c.traceId } := by
  cases h with
  | plain h =>
    obtain ⟨-, p, rfl⟩ := Passes.of_gives s h
    exact ⟨p, rfl⟩
  | traced store h =>
    obtain ⟨c', hc', heq⟩ := gives_of_compileTraced h
    obtain ⟨-, p, rfl⟩ := Passes.of_gives s hc'
    exact ⟨p, heq⟩

end Flow

end CallFlow
