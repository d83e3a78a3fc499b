import CallFlow.Flow.Basic

/-!
# Workflows

A workflow is the graph that the voice runtime executes: nodes and edges under their ids, in
order. Every node lists the edges that leave it, in the order in which they are tried.

## Sections

1. Conditions
2. Nodes
3. Workflows
-/

namespace CallFlow

/-! ## §1 Conditions -/

/-- When a conversation moves along an edge. -/
inductive Condition where
  /-- At once. -/
  | unconditional
  /-- When the runtime's language model finds that the text holds. -/
  | llm (text : String)
  /-- When the node before ended with this success. -/
  | result (successful : Bool)
  /-- When an expression of the runtime holds. -/
  | expression (value : Json)

def Condition.tag : Condition → String
  | unconditional => "unconditional"
  | llm _ => "llm"
  | result _ => "result"
  | expression _ => "expression"

/-! ## §2 Nodes -/

/-- How a call is handed over to a phone number. -/
inductive TransferStyle where
  | conference
  | blind
  deriving DecidableEq, Repr

def TransferStyle.name : TransferStyle → String
  | conference => "conference"
  | blind => "blind"

def TransferStyle.ofName? (name : String) : Option TransferStyle :=
  [conference, blind].find? (·.name = name)

/-- A scripted step: the agent keeps to the given prompt. -/
structure Script where
  label : String
  overridePrompt : Bool := true
  prompt : String
  toolIds : List String := []
  knowledgeBase : List Json := []
  /-- The runtime wants an object here and uses none of its members. -/
  conversationConfig : Members := []

/-- What a node does. -/
inductive NodeKind where
  | start
  | finish
  | script (s : Script)
  | phoneTransfer (number : String) (style : TransferStyle)
  | agentTransfer (agentId : String) (delayMs : Int) (firstMessage : Bool)
  | tools (toolIds : List String)

namespace NodeKind

def tag : NodeKind → String
  | start => "start"
  | finish => "end"
  | script _ => "override_agent"
  | phoneTransfer .. => "phone_number"
  | agentTransfer .. => "standalone_agent"
  | tools _ => "tool"

/-- Whether a conversation may end at the node. -/
def isTerminal : NodeKind → Bool
  | finish | phoneTransfer .. | agentTransfer .. => true
  | _ => false

/-- Whether it is the node where conversations begin. -/
def isStart : NodeKind → Bool
  | start => true
  | _ => false

/-- The label that a node shows, if it has one. -/
def label : NodeKind → String
  | script s => s.label
  | _ => ""

/-- The tools that a node refers to. -/
def toolIds : NodeKind → List String
  | script s => s.toolIds
  | tools ids => ids
  | _ => []

end NodeKind

/-- A node with its place and the ids of the edges that leave it. -/
structure Node where
  position : Position := {}
  edgeOrder : List String := []
  kind : NodeKind

/-! ## §3 Workflows -/

structure Edge where
  source : String
  target : String
  condition : Condition

structure Workflow where
  nodes : Table Node := []
  edges : Table Edge := []

namespace Workflow

/-- The edges listed by a node, without those that do not exist. -/
def outgoing (w : Workflow) (id : String) : List Edge :=
  match Table.get? w.nodes id with
  | none => []
  | some n => n.edgeOrder.filterMap (Table.get? w.edges)

/-- The ids of the nodes where conversations begin. -/
def startIds (w : Workflow) : List String :=
  (w.nodes.filter (·.2.kind.isStart)).map Prod.fst

end Workflow

end CallFlow
