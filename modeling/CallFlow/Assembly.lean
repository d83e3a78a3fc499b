import CallFlow.Attempt
import CallFlow.Settings
import CallFlow.Text.Slice

/-!
# Assembling a Workflow

An assembly grows from the injected start node by adding nodes and connecting them. Every
connection becomes an edge with an id of its own, which its source lists last; a connection
with an end that is no node is dropped with a reason, or refused when the assembly is strict.

A call to an assembly leaves an assembly, whether it goes through or not. Who gives up with a
failure has no use for what it leaves; `committed` is for them.

## Sections

1. Assemblies
2. Calls
3. Nodes
4. Edges
-/

namespace CallFlow

/-! ## §1 Assemblies -/

/-- A connection that was not made. -/
structure DroppedLink where
  linkId : Option String
  source : String
  target : String
  reason : DropReason
  deriving DecidableEq, Repr

def DroppedLink.toMembers (d : DroppedLink) : Members :=
  [("edge_id", Json.ofText? d.linkId), ("source", .str d.source), ("target", .str d.target),
    ("reason", .str d.reason.text)]

/-- A workflow in the making. -/
structure Assembly where
  startNodeId : String
  startEdgeId : String
  strict : Bool
  nodes : Table Node
  edges : Table Edge := []
  dropped : List DroppedLink := []
  /-- How many edge ids have been made. -/
  made : Nat := 0

namespace Assembly

/-- The node where every conversation begins. -/
def startNode : Node := { kind := .start }

/-- An assembly that holds nothing but the start node. -/
def begin (startNodeId startEdgeId : String) (strict : Bool) : Assembly :=
  { startNodeId, startEdgeId, strict, nodes := [(startNodeId, startNode)] }

/-- An assembly with the given settings. -/
def ofSettings (s : Settings) : Assembly :=
  begin s.startNodeId s.startEdgeId s.strictDanglingEdges

/-- The workflow that has been made. -/
def workflow (a : Assembly) : Workflow := { nodes := a.nodes, edges := a.edges }

/-! ## §2 Calls -/

/-- What a call comes to: the assembly that it leaves, and its answer unless it fails. -/
abbrev Called (α : Type) := Assembly × Attempt α

/-- The answer of a call that goes through, with the assembly that it leaves. -/
def committed {α : Type} (called : Called α) : Attempt (α × Assembly) := do
  return (← called.2, called.1)

/-! ## §3 Nodes -/

/-- Adds a node. The start node stays as it is; any other node takes the place of an earlier
one with its id. -/
def callAddNode (a : Assembly) (id : String) (node : Node) : Called Unit :=
  if id = a.startNodeId then
    (a, Attempt.warn ("Flow node id " ++ id ++ " collides with the start node; skipping it"))
  else
    -- The list of edges goes with the earlier node; the edges themselves stay.
    ({ a with nodes := Table.set a.nodes id node },
      if Table.has a.nodes id then
        Attempt.warn ("Duplicate node id " ++ id ++ "; keeping the last definition")
      else return ())

def addNode (a : Assembly) (id : String) (node : Node) : Attempt Assembly :=
  Prod.snd <$> committed (a.callAddNode id node)

/-! ## §4 Edges -/

/-- How many characters of a node id enter the id of an edge. -/
def idCut : Nat := 8

/-- The `n`-th id that is made for an edge. -/
def edgeId (n : Nat) (source target : String) : String :=
  "edge_" ++ toString n ++ "_" ++ Text.takeFirst idCut source ++ "_to_" ++
    Text.takeFirst idCut target

/-- Makes the next id for an edge. -/
def nextEdgeId (a : Assembly) (source target : String) : String × Assembly :=
  (edgeId (a.made + 1) source target, { a with made := a.made + 1 })

/-- Puts a connection that cannot be made on record, unless the assembly is strict. -/
def drop (a : Assembly) (d : DroppedLink) : Called Unit :=
  if a.strict then (a, .fail (.danglingLink d.linkId d.source d.target d.reason))
  else
    ({ a with dropped := a.dropped ++ [d] },
      Attempt.debug ("Dropping edge " ++ d.linkId.getD "None" ++ " (" ++ d.source ++ " -> " ++
        d.target ++ "): " ++ d.reason.text))

/-- Why a connection cannot be made, if it cannot. -/
def missingEnd? (a : Assembly) (source target : String) : Option DropReason :=
  if !Table.has a.nodes source then some .sourceMissing
  else if !Table.has a.nodes target then some .targetMissing
  else none

/-- Stores an edge and lists it last at its source. -/
def addEdge (a : Assembly) (id : String) (e : Edge) : Assembly :=
  { a with
    edges := Table.set a.edges id e
    nodes := Table.modify a.nodes e.source fun n => { n with edgeOrder := n.edgeOrder ++ [id] } }

/-- Connects two nodes, and gives the id of the edge unless the connection is dropped. The edge
has the given id, or one that is made for it if that is missing or empty. -/
def callConnect (a : Assembly) (source target : String) (condition : Condition)
    (id linkId : Option String) : Called (Option String) :=
  match a.missingEnd? source target with
  | some reason =>
    let (a, dropped) := a.drop { linkId, source, target, reason }
    (a, do dropped; return none)
  | none =>
    let given := id.getD ""
    let (edgeId, a) := if given.isEmpty then a.nextEdgeId source target else (given, a)
    (a.addEdge edgeId { source, target, condition }, return some edgeId)

def connect (a : Assembly) (source target : String) (condition : Condition)
    (id linkId : Option String) : Attempt (Option String × Assembly) :=
  committed (a.callConnect source target condition id linkId)

/-- Connects the start node to the entry, if there is one and it is a node. -/
def callConnectStart (a : Assembly) (entry : Option String) : Called (Option String) :=
  match entry with
  | none => (a, return none)
  | some entry =>
    if Table.has a.nodes entry then
      let (a, connected) :=
        a.callConnect a.startNodeId entry .unconditional (some a.startEdgeId) none
      (a, do
        let id ← connected
        Attempt.debug ("Connected start -> " ++ entry)
        return id)
    else (a, return none)

def connectStart (a : Assembly) (entry : Option String) :
    Attempt (Option String × Assembly) :=
  committed (a.callConnectStart entry)

end Assembly

end CallFlow
