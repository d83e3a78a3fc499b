import CallFlow.Flow.Payload
import CallFlow.Workflow.Basic

/-!
# Payloads of Workflows

The runtime's format is strict: a member that is not declared is refused. Nodes and conditions
are told apart by their `type`, and a violation inside one is placed under that tag.

## Sections

1. Tagged records
2. Conditions
3. Nodes
4. Workflows
-/

namespace CallFlow

open Schema

/-! ## §1 Tagged records -/

/-- Reads a record by its `type`. -/
def readTagged {α : Type} (reader? : String → Option (Members → Checked α)) :
    Json → Checked α
  | .obj m =>
    match Table.get? m "type" with
    | none => .refuse .unionTagNotFound
    | some (.str tag) =>
      match reader? tag with
      | some read => (read m).under tag
      | none => .refuse .unionTagInvalid
    | some _ => .refuse .unionTagInvalid
  | _ => .refuse .modelAttributesType

/-- A record that has only the given members. -/
def strictly {α : Type} (fields : List Field) (read : Members → Checked α) (m : Members) :
    Checked α :=
  (read m).andThen (refuseExtra fields m)

/-! ## §2 Conditions -/

namespace Condition

/-- The reader of the conditions with a tag. -/
def reader? : String → Option (Members → Checked Condition)
  | "unconditional" => some <| strictly ["type"] fun _ => .accepted unconditional
  | "llm" => some <| strictly ["type", "condition"] fun m =>
      llm <$> Field.required "condition" readText m
  | "result" => some <| strictly ["type", "successful"] fun m =>
      result <$> Field.required "successful" readTruth m
  | "expression" => some <| strictly ["type", "expression"] fun m =>
      expression <$> Field.required "expression" .accepted m
  | _ => none

def read : Json → Checked Condition := readTagged reader?

/-- The members of a condition besides its tag. -/
def details : Condition → Members
  | unconditional => []
  | llm text => [("condition", .str text)]
  | result successful => [("successful", .bool successful)]
  | expression value => [("expression", value.portable)]

def toJson (c : Condition) : Json := .obj (("type", .str c.tag) :: c.details)

end Condition

/-! ## §3 Nodes -/

namespace NodeKind

/-- Reads the one word that is allowed. -/
def readWordExactly (word : String) : Json → Checked Unit
  | .str s => if s = word then .accepted () else .refuse .literalError
  | _ => .refuse .literalError

def readStyle : Json → Checked TransferStyle
  | .str s => match TransferStyle.ofName? s with
    | some style => .accepted style
    | none => .refuse .literalError
  | _ => .refuse .literalError

/-- Reads the number that a call is handed over to. -/
def readDestination : Json → Checked String :=
  readRecord <| strictly ["type", "phone_number"] fun m =>
    (fun _ number => number)
      <$> Field.optional "type" () (readWordExactly "phone") m
      <*> Field.optional "phone_number" "" readText m

def readToolReference : Json → Checked String :=
  readRecord <| strictly ["tool_id"] fun m => Field.required "tool_id" readText m

/-- The fields of a kind of node, besides those that all nodes have, and how they are read. -/
def reader? : String → Option (List Field × (Members → Checked NodeKind))
  | "start" => some ([], fun _ => .accepted start)
  | "end" => some ([], fun _ => .accepted finish)
  | "override_agent" => some
      (["label", "override_prompt", "additional_prompt", "additional_tool_ids",
        "additional_knowledge_base", "conversation_config"], fun m =>
        script <$> (Script.mk
          <$> Field.required "label" readText m
          <*> Field.optional "override_prompt" true readTruth m
          <*> Field.required "additional_prompt" readText m
          <*> Field.optional "additional_tool_ids" [] (readList readText) m
          <*> Field.optional "additional_knowledge_base" [] (readList .accepted) m
          <*> Field.optional "conversation_config" [] readMembers m))
  | "phone_number" => some
      (["transfer_destination", "transfer_type"], fun m =>
        phoneTransfer
          <$> Field.optional "transfer_destination" "" readDestination m
          <*> Field.optional "transfer_type" .conference readStyle m)
  | "standalone_agent" => some
      (["agent_id", "delay_ms", "enable_transferred_agent_first_message"], fun m =>
        agentTransfer
          <$> Field.optional "agent_id" "" readText m
          <*> Field.optional "delay_ms" 0 readInteger m
          <*> Field.optional "enable_transferred_agent_first_message" true readTruth m)
  | "tool" => some
      (["tools"], fun m => tools <$> Field.optional "tools" [] (readList readToolReference) m)
  | _ => none

/-- The members of a node besides those that all nodes have. -/
def details : NodeKind → Members
  | start => []
  | finish => []
  | script s =>
    [("label", .str s.label), ("override_prompt", .bool s.overridePrompt),
      ("additional_prompt", .str s.prompt), ("additional_tool_ids", Json.ofTexts s.toolIds),
      ("additional_knowledge_base", .arr (Json.portableItems s.knowledgeBase)),
      ("conversation_config", .obj (Json.portableMembers s.conversationConfig))]
  | phoneTransfer number style =>
    [("transfer_destination", .obj [("type", .str "phone"), ("phone_number", .str number)]),
      ("transfer_type", .str style.name)]
  | agentTransfer agentId delayMs firstMessage =>
    [("agent_id", .str agentId), ("delay_ms", .int delayMs),
      ("enable_transferred_agent_first_message", .bool firstMessage)]
  | tools ids => [("tools", .arr (ids.map fun id => .obj [("tool_id", .str id)]))]

end NodeKind

namespace Node

/-- The fields that all nodes have. -/
def commonFields : List Field := ["position", "edge_order", "type"]

/-- The reader of the nodes with a tag. -/
def reader? (tag : String) : Option (Members → Checked Node) :=
  (NodeKind.reader? tag).map fun (fields, readKind) =>
    strictly (commonFields ++ fields) fun m =>
      Node.mk
        <$> Field.optional "position" {} Position.read m
        <*> Field.optional "edge_order" [] (readList readText) m
        <*> readKind m

def read : Json → Checked Node := readTagged reader?

def toJson (n : Node) : Json :=
  .obj ([("position", n.position.toJson), ("edge_order", Json.ofTexts n.edgeOrder),
    ("type", .str n.kind.tag)] ++ n.kind.details)

end Node

/-! ## §4 Workflows -/

namespace Edge

def read : Json → Checked Edge :=
  readRecord <| strictly ["source", "target", "forward_condition"] fun m =>
    Edge.mk
      <$> Field.required "source" readText m
      <*> Field.required "target" readText m
      <*> Field.required "forward_condition" Condition.read m

def toJson (e : Edge) : Json :=
  .obj [("source", .str e.source), ("target", .str e.target),
    ("forward_condition", e.condition.toJson)]

end Edge

namespace Workflow

def read : Json → Checked Workflow :=
  readRecord <| strictly ["nodes", "edges"] fun m =>
    Workflow.mk
      <$> Field.optional "nodes" [] (readDictionary Node.read) m
      <*> Field.optional "edges" [] (readDictionary Edge.read) m

/-- The payload of a workflow. -/
def toJson (w : Workflow) : Json :=
  .obj [("nodes", .obj (w.nodes.map fun e => (e.1, e.2.toJson))),
    ("edges", .obj (w.edges.map fun e => (e.1, e.2.toJson)))]

end Workflow

end CallFlow
