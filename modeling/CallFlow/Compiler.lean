import CallFlow.Assembly
import CallFlow.Branch.Expansion
import CallFlow.Flow.Entry
import CallFlow.Step.Compile
import CallFlow.Trace
import CallFlow.Transition

/-!
# Compiling Flows

A flow is compiled in four passes: its entry is found; every step is compiled, which gives the
nodes and the facts to register; every link is turned into the edges it stands for; and all is
assembled around the injected start node.

## Sections

1. Results
2. Facts
3. Nodes
4. Edges
5. Flows
6. Traced compilations
-/

namespace CallFlow

/-! ## §1 Results -/

/-- What has to be registered before a workflow can be executed. -/
structure Facts where
  hasTransfer : Bool := false
  hasAppointment : Bool := false
  hasForm : Bool := false
  forms : List FormRegistration := []
  webhooks : List WebhookRegistration := []
  audios : List AudioRegistration := []
  toolIds : List String := []

structure Compilation where
  workflow : Workflow := {}
  entryId : Option String := none
  firstMessage : Option String := none
  facts : Facts := {}
  dropped : List DroppedLink := []
  traceId : Option String := none

namespace Compilation

/-- The members of a compiled flow besides its workflow. -/
def summaryMembers (c : Compilation) : Members :=
  [("entry_node_id", Json.ofText? c.entryId), ("first_message", Json.ofText? c.firstMessage),
    ("has_transfer_nodes", .bool c.facts.hasTransfer),
    ("has_appointment_nodes", .bool c.facts.hasAppointment),
    ("has_form_nodes", .bool c.facts.hasForm),
    ("form_nodes", .arr (c.facts.forms.map FormRegistration.toJson)),
    ("has_webhook_nodes", .bool !c.facts.webhooks.isEmpty),
    ("webhook_nodes", .arr (c.facts.webhooks.map WebhookRegistration.toJson)),
    ("has_play_audio_nodes", .bool !c.facts.audios.isEmpty),
    ("play_audio_nodes", .arr (c.facts.audios.map AudioRegistration.toJson)),
    ("tool_ids", Json.ofTexts c.facts.toolIds),
    ("dropped_edges", .arr (c.dropped.map fun d => .obj d.toMembers)),
    ("trace_id", Json.ofText? c.traceId)]

def toMembers (c : Compilation) : Members :=
  ("workflow", c.workflow.toJson) :: c.summaryMembers

/-- The id of the node where conversations begin. -/
def startId (c : Compilation) : String :=
  c.workflow.startIds.head?.getD Workflow.defaultStartId

/-- Validates the workflow of a compiled flow. -/
def validate (c : Compilation) : Report := c.workflow.validate c.startId

end Compilation

/-! ## §2 Facts -/

/-- Adds the facts of one compiled step. -/
def Facts.absorb (facts : Facts) (c : Compiled) : Facts :=
  { hasTransfer := facts.hasTransfer || c.hasTransfer
    hasAppointment := facts.hasAppointment || c.hasAppointment
    hasForm := facts.hasForm || c.hasForm
    forms := facts.forms ++ c.form.toList
    webhooks := facts.webhooks ++ c.webhook.toList
    audios := facts.audios ++ c.audio.toList
    toolIds := facts.toolIds ++ c.toolIds }

namespace Flow

/-! ## §3 Nodes -/

/-- Compiles one step into an assembly. -/
def compileStep (state : Facts × Assembly) (s : Step) : Attempt (Facts × Assembly) := do
  let c ← s.compile
  let facts := state.1.absorb c
  match c.node with
  | none => return (facts, state.2)
  | some node => return (facts, ← state.2.addNode s.id node)

/-- Compiles all steps, in order, into an assembly. -/
def compileSteps (f : Flow) (a : Assembly) : Attempt (Facts × Assembly) :=
  f.steps.foldlM compileStep ({}, a)

/-! ## §4 Edges -/

/-- A connection that a link stands for. -/
structure Connection where
  source : String
  target : String
  condition : Condition
  linkId : String

/-- The connections that a link stands for. Links at triggers are replaced by the edge from the
start node, and links out of a branch by those that its entering links stand for. -/
def connectionsOf (f : Flow) (l : Link) : Attempt (List Connection) :=
  if f.isTrigger l.source || f.isTrigger l.target || f.isBranch l.source then return []
  else if f.isBranch l.target then do
    -- Every edge of the expansion is put down to the link that enters the branch.
    return (← f.expand l).map fun e => ⟨e.source, e.target, e.condition, l.id⟩
  else
    return [⟨l.source, l.target, Transition.ofLink (f.step? l.source) l, l.id⟩]

def connectOne (a : Assembly) (c : Connection) : Attempt Assembly := do
  return (← a.connect c.source c.target c.condition none (some c.linkId)).2

/-- Makes the connections that a link stands for. -/
def connectLink (f : Flow) (a : Assembly) (l : Link) : Attempt Assembly := do
  (← f.connectionsOf l).foldlM connectOne a

/-- Makes the connections of all links, in order. -/
def connectLinks (f : Flow) (a : Assembly) : Attempt Assembly :=
  f.links.foldlM f.connectLink a

/-! ## §5 Flows -/

/-- The journal lines about the nodes and edges of a compiled flow. -/
def describe (w : Workflow) : Attempt Unit := do
  w.nodes.forM fun (id, n) =>
    let label := n.kind.label
    Attempt.debug ("  [" ++ id ++ "] type=" ++ n.kind.tag ++ " edges=" ++
      toString n.edgeOrder.length ++
      (if label.isEmpty then "" else " label=\"" ++ label ++ "\""))
  w.edges.forM fun (id, e) =>
    let detail := match e.condition with
      | .llm text => " \"" ++ Text.takeFirst 30 text ++ "...\""
      | _ => ""
    Attempt.debug ("  [" ++ id ++ "] " ++ e.source ++ " -> " ++ e.target ++ " (" ++
      e.condition.tag ++ detail ++ ")")

/-- The journal lines about a compiled flow. -/
def summarize (c : Compilation) : Attempt Unit := do
  let toolIds := ", ".intercalate c.facts.toolIds
  Attempt.info ("Compiled workflow: " ++ toString c.workflow.nodes.length ++ " nodes, " ++
    toString c.workflow.edges.length ++ " edges (transfer nodes: " ++
    (Json.bool c.facts.hasTransfer).display ++ ", tool ids: " ++
    (if toolIds.isEmpty then "none" else toolIds) ++ ")")
  describe c.workflow

/-- Compiles a flow that has steps. -/
def assemble (f : Flow) (settings : Settings) : Attempt Compilation := do
  let entry ← f.entry
  let (facts, a) ← f.compileSteps (Assembly.ofSettings settings)
  let (_, a) ← a.connectStart entry.stepId
  let a ← f.connectLinks a
  return {
    workflow := a.workflow
    entryId := entry.stepId
    firstMessage := entry.firstMessage
    facts
    dropped := a.dropped }

def compile (f : Flow) (settings : Settings) : Attempt Compilation :=
  if f.steps.isEmpty then .fail .emptyFlow
  else do
    Attempt.info ("Compiling flow: " ++ toString f.steps.length ++ " nodes, " ++
      toString f.links.length ++ " edges")
    let c ← f.assemble settings
    summarize c
    return c

/-! ## §6 Traced compilations -/

/-- The size of a flow, as the data of an event. -/
def sizeData (f : Flow) : Members :=
  [("nodes", .int f.steps.length), ("edges", .int f.links.length)]

/-- The events that follow the start of a successful compilation. -/
def finishingEvents (c : Compilation) : List (String × Members) :=
  c.dropped.map (fun d => ("edge_dropped", d.toMembers)) ++
  [("compile_finished",
    [("nodes", .int c.workflow.nodes.length), ("edges", .int c.workflow.edges.length),
      ("dropped_edges", .int c.dropped.length), ("tool_ids", Json.ofTexts c.facts.toolIds)])]

/-- Compiles a flow and records a trace of it, unless the flow is empty. -/
def compileTraced (f : Flow) (settings : Settings) (store : TraceStore) :
    TraceStore × Attempt Compilation :=
  if f.steps.isEmpty then (store, .fail .emptyFlow)
  else
    match store.start "flow" f.sizeData with
    | (store, .error e) => (store, .fail e)
    | (store, .ok traceId) =>
      let attempt := f.compile settings
      match attempt.outcome with
      -- A trace without a last event is one of a compilation that failed.
      | .error _ => (store, attempt)
      | .ok c =>
        match store.logAll traceId (finishingEvents c) with
        | (store, .error e) => (store, ⟨attempt.journal, .error e⟩)
        | (store, .ok ()) =>
          (store, ⟨attempt.journal, .ok { c with traceId := some traceId }⟩)

end Flow

end CallFlow
