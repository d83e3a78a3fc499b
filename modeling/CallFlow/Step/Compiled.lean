import CallFlow.Form.Field
import CallFlow.Workflow.Payload

/-!
# Compiled Steps

Compiling a step gives a node, unless the step is structural, and facts that the runtime has
to be told before it can execute the node: forms to register, services to call, recordings to
play, and the tools that stand for them.
-/

namespace CallFlow

/-! ## Registrations -/

/-- A form whose answers a step collects. -/
structure FormRegistration where
  formId : String
  formName : String
  fields : List FormField

/-- How a service is called. -/
inductive HttpMethod where
  | get
  | post
  | put
  | patch
  | delete
  deriving DecidableEq, Repr

def HttpMethod.name : HttpMethod → String
  | get => "GET"
  | post => "POST"
  | put => "PUT"
  | patch => "PATCH"
  | delete => "DELETE"

def HttpMethod.ofName? (name : String) : Option HttpMethod :=
  [get, post, put, patch, delete].find? (·.name = name)

/-- A service that a step calls. -/
structure WebhookRegistration where
  toolId : String
  url : String
  method : HttpMethod
  headers : Option Members
  payload : Option Members

/-- A recording that a step plays. -/
structure AudioRegistration where
  stepId : String
  url : String
  fileName : String
  interruptible : Bool
  waitForComplete : Bool

namespace FormRegistration

def toJson (r : FormRegistration) : Json :=
  .obj [("form_id", .str r.formId), ("form_name", .str r.formName),
    ("fields", .arr (r.fields.map FormField.toJson))]

end FormRegistration

namespace WebhookRegistration

/-- Optional members as a value. -/
def membersValue : Option Members → Json
  | none => .null
  | some m => .obj (Json.portableMembers m)

def toJson (r : WebhookRegistration) : Json :=
  .obj [("tool_id", .str r.toolId), ("url", .str r.url), ("method", .str r.method.name),
    ("headers", membersValue r.headers), ("payload", membersValue r.payload)]

end WebhookRegistration

namespace AudioRegistration

def toJson (r : AudioRegistration) : Json :=
  .obj [("node_id", .str r.stepId), ("audio_url", .str r.url),
    ("audio_file_name", .str r.fileName), ("interruptible", .bool r.interruptible),
    ("wait_for_complete", .bool r.waitForComplete)]

end AudioRegistration

/-! ## Compiled steps -/

/-- A node, unless the step has none, with the facts that come with it. -/
structure Compiled where
  node : Option Node := none
  hasTransfer : Bool := false
  hasAppointment : Bool := false
  hasForm : Bool := false
  form : Option FormRegistration := none
  webhook : Option WebhookRegistration := none
  audio : Option AudioRegistration := none
  toolIds : List String := []

def Compiled.toJson (c : Compiled) : Json :=
  .obj [("node", (c.node.map Node.toJson).getD .null),
    ("has_transfer", .bool c.hasTransfer), ("has_appointment", .bool c.hasAppointment),
    ("has_form", .bool c.hasForm),
    ("form_node", (c.form.map FormRegistration.toJson).getD .null),
    ("webhook_node", (c.webhook.map WebhookRegistration.toJson).getD .null),
    ("play_audio_node", (c.audio.map AudioRegistration.toJson).getD .null),
    ("tool_ids", Json.ofTexts c.toolIds)]

end CallFlow
