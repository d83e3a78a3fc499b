import CallFlow.Failure
import CallFlow.Workflow.Basic

/-!
# Validation of Workflows

A workflow has errors if the runtime would refuse it: too few nodes, no start node, edges that
lead nowhere. It has warnings if parts of it can never matter: nodes that no conversation
reaches, and nodes where a conversation gets stuck.

## Sections

1. Reachability
2. Reports
-/

namespace CallFlow

namespace Workflow

/-! ## §1 Reachability -/

/-- Whether an edge leads from one node to another. -/
def leads (w : Workflow) (source target : String) : Bool :=
  w.edges.any fun e => e.2.source = source && e.2.target = target

/-- The unseen nodes that a node leads to. -/
def found (leads : String → String → Bool) (id : String) (unseen : List String) :
    List String :=
  unseen.filter fun other => leads id other

/-- The unseen nodes that a node does not lead to. -/
def notFound (leads : String → String → Bool) (id : String) (unseen : List String) :
    List String :=
  unseen.filter fun other => !leads id other

theorem length_found_add_notFound (leads : String → String → Bool) (id : String)
    (unseen : List String) :
    (found leads id unseen).length + (notFound leads id unseen).length = unseen.length := by
  induction unseen with
  | nil => rfl
  | cons a rest ih =>
    simp only [found, notFound] at ih
    cases h : leads id a <;> simp [found, notFound, h] <;> omega

/-- Visits nodes breadth first: takes the first node of the queue, moves the unseen nodes that
it leads to to the end of the queue, and goes on until the queue is empty. Each round leaves
one node less in the queue and unseen, so the search ends. -/
def explore (leads : String → String → Bool) (unseen queue : List String) : List String :=
  match queue with
  | [] => []
  | id :: rest =>
    -- What is found here is no longer unseen, so no node enters the queue twice.
    id :: explore leads (notFound leads id unseen) (rest ++ found leads id unseen)
termination_by unseen.length + queue.length
decreasing_by
  have := length_found_add_notFound leads id unseen
  simp only [List.length_append, List.length_cons]
  omega

/-- The nodes that a path of edges between nodes leads to from the root, the root included. -/
def reachableFrom (w : Workflow) (root : String) : List String :=
  if Table.has w.nodes root then
    explore w.leads ((Table.names w.nodes).filter (· ≠ root)) [root]
  else []

end Workflow

/-! ## §2 Reports -/

/-- The findings on a workflow. -/
structure Report where
  errors : List String
  warnings : List String

namespace Report

/-- A workflow without errors is valid. -/
def valid (r : Report) : Bool := r.errors.isEmpty

def toJson (r : Report) : Json :=
  .obj [("valid", .bool r.valid), ("errors", Json.ofTexts r.errors),
    ("warnings", Json.ofTexts r.warnings)]

/-- The report itself if it is valid, or else a failure with its errors. -/
def ensureValid (r : Report) : Except Failure Report :=
  if r.valid then .ok r else .error (.invalidWorkflow r.errors)

end Report

namespace Workflow

/-- The id of the start node, unless the settings choose another one. -/
def defaultStartId : String := "start_node"

/-- Whether the node of an id is a start node. -/
def startsAt (w : Workflow) (id : String) : Bool :=
  match Table.get? w.nodes id with
  | some n => n.kind.isStart
  | none => false

/-- What is wrong with the ends of an edge. -/
def edgeErrors (w : Workflow) (id : String) (e : Edge) : List String :=
  (if Table.has w.nodes e.target then []
    else ["Edge " ++ id ++ " targets non-existent node " ++ e.target]) ++
  (if Table.has w.nodes e.source then []
    else ["Edge " ++ id ++ " has non-existent source " ++ e.source])

/-- What the runtime would refuse. -/
def errors (w : Workflow) (startId : String) : List String :=
  (if w.nodes.length ≤ 1 then ["Workflow must have at least one node besides start"] else []) ++
  (if w.startsAt startId then [] else ["Workflow must have a start node"]) ++
  w.edges.flatMap fun e => w.edgeErrors e.1 e.2

/-- The nodes that no conversation reaches. -/
def unreachable (w : Workflow) (startId : String) : List String :=
  let reached := w.reachableFrom startId
  (Table.names w.nodes).filter fun id => id ≠ startId && !reached.contains id

/-- The nodes other than terminal ones that list no edge. -/
def deadEnds (w : Workflow) (startId : String) : List String :=
  (w.nodes.filter fun e =>
    e.1 ≠ startId && !e.2.kind.isTerminal && e.2.edgeOrder.isEmpty).map Prod.fst

/-- What can never matter. -/
def warnings (w : Workflow) (startId : String) : List String :=
  ((w.unreachable startId).map fun id =>
    "Node " ++ id ++ " is not reachable from the start node") ++
  (w.deadEnds startId).map fun id => "Node " ++ id ++ " has no outgoing edges"

/-- Validates a workflow whose conversations begin at the given node. -/
def validate (w : Workflow) (startId : String) : Report :=
  { errors := w.errors startId, warnings := w.warnings startId }

end Workflow

end CallFlow
