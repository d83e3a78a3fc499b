import CallFlow.Attempt
import CallFlow.Schema.Record
import CallFlow.Text.Case
import CallFlow.Workflow.Basic

/-!
# Branch Rules

A branch step lists rules: which answer of the caller leads where. A rule is used by the text
of its condition, which is its description or is made from its value.

## Sections

1. Rules
2. Texts
3. Conditions of hops
-/

namespace CallFlow

/-! ## §1 Rules -/

/-- A rule of a branch step. -/
structure BranchRule where
  id : Option String := none
  label : Option String := none
  type : Option String := some "keyword"
  value : Json := .null
  description : Option String := none
  targetId : Option String := none
  extra : Members := []

namespace BranchRule

open Schema

/-- The key of the step that a rule leads to. -/
def targetKey : Field := { name := "target_node_id", alias? := "targetNodeId" }

def schema : List Field := ["id", "label", "type", "value", "description", targetKey]

def ofMembers (m : Members) : Checked BranchRule :=
  BranchRule.mk
    <$> Field.optional "id" none (readOptional readText) m
    <*> Field.optional "label" none (readOptional readText) m
    <*> Field.optional "type" (some "keyword") (readOptional readText) m
    <*> Field.optional "value" .null .accepted m
    <*> Field.optional "description" none (readOptional readText) m
    <*> Field.optional targetKey none (readOptional readText) m
    <*> pure (extraMembers schema m)

def toJson (r : BranchRule) : Json :=
  .obj (Table.setAll
    [("id", Json.ofText? r.id), ("label", Json.ofText? r.label), ("type", Json.ofText? r.type),
      ("value", r.value.portable), ("description", Json.ofText? r.description),
      ("target_node_id", Json.ofText? r.targetId)]
    (Json.portableMembers r.extra))

/-- Reads one entry of a list of rules. Entries that are no objects are passed over in silence,
and malformed ones with a warning. -/
def take : Json → Attempt (Option BranchRule)
  | .obj m =>
    match ofMembers m with
    | .accepted r => return some r
    | .rejected vs => do
      Attempt.warn ("Ignoring malformed branch rule " ++ (Json.obj m).quoted ++ ": " ++
        violationsText vs)
      return none
  | _ => return none

/-- The well-formed rules among the settings of a branch step. -/
def parse (config : Members) : Attempt (List BranchRule) := do
  let listed := Json.member config "conditions"
  if listed.isGiven then
    match listed.items? with
    | some items => return (← items.mapM take).filterMap fun r => r
    | none => .fail .notAListing
  else return []

/-! ## §2 Texts -/

/-- The text for an answer that agrees. -/
def agreed : String := "User said yes or agreed"

/-- The text for an answer that declines. -/
def declined : String := "User said no or declined"

/-- The text for an answer that mentions something. -/
def mentioned (what : String) : String := "User mentioned \"" ++ what ++ "\""

/-- What a rule of some type makes of certain values, which are given in lower case. -/
def valueText? (type : Option String) (value : String) : Option String :=
  match type with
  | some "yes_no" | some "boolean" =>
    match value with
    | "yes" | "true" => some agreed
    | "no" | "false" => some declined
    | _ => none
  | some "sentiment" =>
    match value with
    | "positive" | "interested" => some "User sounds interested"
    | "negative" | "not_interested" => some "User sounds not interested"
    | "neutral" => some "User sounds neutral"
    | _ => none
  | _ => none

/-- The condition that is made from the value of a rule, or from its label. -/
def valueCondition (r : BranchRule) : String :=
  let value := Json.displayFirst [r.value, Json.ofText? r.label] ""
  match valueText? r.type (Text.lowerAscii value) with
  | some text => text
  | none => if value.isEmpty then "" else mentioned value

/-- The condition of a rule; it may be empty. -/
def text (r : BranchRule) : String :=
  let description := r.description.getD ""
  if description.isEmpty then r.valueCondition else description

/-- The condition of a handle of a branch step. -/
def handleText (handle : String) : String :=
  match Text.lowerAscii handle with
  | "true" | "yes" => agreed
  | "false" | "no" => declined
  | "default" | "else" | "otherwise" => "Other cases"
  | _ => mentioned handle

end BranchRule

/-! ## §3 Conditions of hops -/

/-- The condition of one hop out of a branch step. -/
inductive Hop where
  /-- No link leads to the branch, so nothing leaves it. -/
  | blocked
  /-- The hop is made at once. -/
  | unconditional
  /-- The hop is made when the text holds. -/
  | named (text : String)
  deriving DecidableEq, Repr

namespace Hop

/-- The text of a hop, if it has one. -/
def text? : Hop → Option String
  | named text => some text
  | _ => none

/-- What stands between the texts of a chain of hops. -/
def separator : String := " AND "

/-- The condition of a chain of hops: all their texts together. -/
def combine (hops : List Hop) : Condition :=
  match hops.filterMap text? with
  | [] => .unconditional
  | texts => .llm (separator.intercalate texts)

theorem combine_of_eq_nil {hops : List Hop} (h : hops.filterMap text? = []) :
    combine hops = .unconditional := by
  unfold combine
  rw [h]

theorem combine_of_ne_nil {hops : List Hop} (h : hops.filterMap text? ≠ []) :
    combine hops = .llm (separator.intercalate (hops.filterMap text?)) := by
  unfold combine
  cases htexts : hops.filterMap text? with
  | nil => exact absurd htexts h
  | cons first rest => rfl

end Hop

end CallFlow
