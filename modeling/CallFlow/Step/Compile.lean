import CallFlow.Attempt
import CallFlow.Prompt
import CallFlow.Step.Compiled
import CallFlow.Text.Case
import CallFlow.Text.Integer

/-!
# Compiling Steps

The category of a step decides how it is compiled. Settings are free-form, so each one is
used by its text if it is given and replaced by a default if it is not.

## Sections

1. Labels and scripts
2. Speaking
3. Appointments and forms
4. Handing the call over
5. Services and recordings
6. All categories
-/

namespace CallFlow.Step

/-! ## §1 Labels and scripts -/

/-- The label of the node of a step. -/
def nodeLabel (s : Step) : String :=
  Json.displayFirst [s.setting "label", s.setting "name", Json.ofText? s.data.label]
    s.rawCategory

/-- The text of the first given one among some settings, or else the default. -/
def settingText (s : Step) (names : List String) (default : String) : String :=
  Json.displayFirst (names.map s.setting) default

/-- The scripted node of a step. -/
def scriptNode (s : Step) (prompt : String) (toolIds : List String) : Node :=
  { position := s.position
    kind := .script { label := s.nodeLabel, prompt, toolIds } }

/-- A node of another kind for a step. -/
def plainNode (s : Step) (kind : NodeKind) : Node := { position := s.position, kind }

/-! ## §2 Speaking -/

/-- Steps that speak a message. -/
def compileMessage (s : Step) : Attempt Compiled := do
  let text := s.settingText ["message"] "Hello"
  Attempt.debug ("Compiling message node " ++ s.id ++ ": " ++ Text.quoted (Text.preview text))
  return { node := some (s.scriptNode (Prompt.sayAndProceed text) []) }

/-- Steps that ask a question. -/
def compileQuestion (s : Step) : Attempt Compiled := do
  let text := s.settingText ["question", "message"] "How can I help you?"
  Attempt.debug ("Compiling question node " ++ s.id ++ ": " ++ Text.quoted (Text.preview text))
  return { node := some (s.scriptNode (Prompt.ask text) []) }

/-- Steps that let some time pass. -/
def compileDelay (s : Step) : Attempt Compiled :=
  let text := s.settingText ["message", "waitMessage"] "One moment please..."
  return { node := some (s.scriptNode (Prompt.sayAndProceed text) []) }

/-- Steps of no known category, and greetings, whose category matters only to their links. -/
def compileUnrecognized (s : Step) : Attempt Compiled := do
  let text := s.settingText ["message", "text"] "How may I assist you?"
  Attempt.info ("Compiling unrecognized node type " ++ Text.quoted s.rawCategory ++
    " (" ++ s.id ++ ") as subagent")
  return { node := some (s.scriptNode (Prompt.sayAndProceed text) []) }

/-! ## §3 Appointments and forms -/

/-- Steps that book an appointment. -/
def compileAppointment (s : Step) : Attempt Compiled :=
  let introduction :=
    s.settingText ["message", "introMessage"] "I can help you schedule an appointment."
  return {
    node := some (s.scriptNode (Prompt.bookAppointment introduction s.config) [])
    hasAppointment := true }

/-- The fields that a step lists, with their positions in the list. -/
def listedFields (s : Step) : Attempt (List (Json × Nat)) :=
  let listed := s.setting "fields"
  if listed.isGiven then
    match listed.items? with
    | some items => return items.zipIdx
    | none => .fail .notAListing
  else return []

/-- Reads a field at a position, which is its order unless the field says otherwise. -/
def readListedField (m : Members) (position : Nat) : Schema.Checked FormField :=
  FormField.ofMembers
    (if Table.has m "order" then m else Table.set m "order" (.int position))

/-- Takes one entry of a list of fields. Entries that are no objects are passed over in
silence, and malformed ones with a warning. -/
def takeField (s : Step) : Json × Nat → Attempt (Option FormField)
  | (.obj m, position) =>
    match readListedField m position with
    | .accepted f => return some f
    | .rejected vs => do
      Attempt.warn ("Form node " ++ s.id ++ ": skipping malformed field " ++
        (Json.obj m).quoted ++ ": " ++ Schema.violationsText vs)
      return none
  | _ => return none

/-- The well-formed fields of a step. -/
def formFields (s : Step) : Attempt (List FormField) := do
  let listed ← s.listedFields
  let taken ← listed.mapM s.takeField
  return taken.filterMap fun f => f

/-- The tool that saves the answers to a form. -/
def formToolId (formId : String) : String := Prompt.formTool ++ "_" ++ Text.takeLast 8 formId

/-- Steps that collect the answers to a form. The form is registered if it has an id. -/
def compileForm (s : Step) : Attempt Compiled := do
  let introduction := s.settingText ["message", "introMessage"]
    "I need to collect some information from you."
  let formId := s.setting "formId"
  let formName := s.settingText ["formName"] Prompt.defaultFormName
  let fields ← s.formFields
  Attempt.debug ("Compiling form node " ++ s.id ++ ": form=" ++ formId.display ++
    " fields=" ++ toString fields.length)
  let prompt := Prompt.collectForm introduction formName fields
  if formId.isGiven then
    let toolIds := [formToolId formId.display]
    return {
      node := some (s.scriptNode prompt toolIds)
      hasForm := true
      form := some { formId := formId.display, formName, fields }
      toolIds }
  else
    return { node := some (s.scriptNode prompt []), hasForm := true }

/-! ## §4 Handing the call over -/

/-- Steps that hand the call over to a phone number. -/
def compilePhoneTransfer (s : Step) : Attempt Compiled := do
  let number := s.settingText ["phoneNumber", "transferNumber", "number"] ""
  let styleName := s.settingText ["transferType"] TransferStyle.conference.name
  let style ← match TransferStyle.ofName? styleName with
    | some style => pure style
    | none => do
      Attempt.warn ("Transfer node " ++ s.id ++ " has unknown transferType " ++
        Text.quoted styleName ++ "; using conference")
      pure TransferStyle.conference
  return { node := some (s.plainNode (.phoneTransfer number style)), hasTransfer := true }

/-- The whole number that a delay stands for; `none` if it stands for none. A delay without
end is a failure. -/
def wholeDelay? : Json → Attempt (Option Int)
  | .int i => return some i
  | .bool b => return some (if b then 1 else 0)
  | .float x =>
    match Decimal.view x with
    | .nan => return none
    | .infinity _ => .fail .infiniteDelay
    | .finite negative m q => return some (Decimal.truncated negative m q)
  | .str text => return Text.wholeNumber? text
  | _ => return none

/-- The delay of a step in milliseconds. -/
def delayMs (s : Step) : Attempt Int :=
  match s.setting "delay_ms" with
  | .null => return 0
  | .str "" => return 0
  | v => do
    match ← wholeDelay? v with
    | some i => return i
    | none =>
      Attempt.warn ("Node " ++ s.id ++ " has non-integer delay_ms=" ++ v.quoted ++ "; using 0")
      return 0

/-- Whether a setting is on; null leaves it as it is by default. -/
def switch (default : Bool) : Json → Bool
  | .null => default
  | v => v.isGiven

/-- Steps that hand the call over to another agent. -/
def compileAgentTransfer (s : Step) : Attempt Compiled := do
  let agentId := s.settingText ["agentId", "agent_id"] ""
  let delay ← s.delayMs
  let firstMessage := switch true (s.setting "enableFirstMessage")
  return { node := some (s.plainNode (.agentTransfer agentId delay firstMessage)) }

/-- Steps that end the call. -/
def compileEnd (s : Step) : Attempt Compiled :=
  return { node := some (s.plainNode .finish) }

/-! ## §5 Services and recordings -/

/-- The values that a step may hold under some names, in its settings or beside them. -/
def settingsThenData (s : Step) (names : List String) : List Json :=
  names.map s.setting ++ names.map s.dataField

/-- An object among the given values. -/
def objectOf? : Option Json → Option Members
  | some (.obj m) => some m
  | _ => none

/-- The method by which a step calls its service. -/
def webhookMethod (s : Step) : Attempt HttpMethod := do
  let name := Text.upper
    (Json.displayFirst (s.settingsThenData ["method"]) HttpMethod.post.name)
  match HttpMethod.ofName? name with
  | some method => return method
  | none =>
    Attempt.warn ("Webhook node " ++ s.id ++ " has unsupported method " ++ Text.quoted name ++
      "; using POST")
    return .post

/-- Steps that call a service. The service is registered if its address is known. -/
def compileWebhook (s : Step) : Attempt Compiled := do
  let toolId := Json.displayFirst (s.settingsThenData ["toolId", "tool_id", "name"])
    ("webhook_" ++ s.id)
  let url := Json.firstGiven? (s.settingsThenData ["url", "webhookUrl"])
  let method ← s.webhookMethod
  let headers := objectOf? (Json.firstGiven? (s.settingsThenData ["headers"]))
  let payload := objectOf? (Json.firstGiven? (s.settingsThenData ["payload"]))
  let node := s.plainNode (.tools [toolId])
  match url with
  | some url =>
    Attempt.debug ("Webhook node configured: " ++ toolId ++ " -> " ++ method.name ++ " " ++
      url.display)
    return {
      node := some node
      webhook := some { toolId, url := url.display, method, headers, payload }
      toolIds := [toolId] }
  | none =>
    Attempt.warn ("Webhook node " ++ s.id ++ " has no URL configured")
    return { node := some node, toolIds := [toolId] }

/-- The tool that plays the recording of a step. -/
def audioToolId (stepId : String) : String := "play_audio_" ++ Text.takeLast 8 stepId

/-- Steps that play a recording. -/
def compileAudio (s : Step) : Attempt Compiled := do
  let url := s.settingText ["audioUrl"] ""
  if url.isEmpty then
    Attempt.warn ("Play audio node " ++ s.id ++ " has no audio URL configured")
  let toolId := audioToolId s.id
  return {
    node := some (s.plainNode (.tools [toolId]))
    audio := some {
      stepId := s.id
      url
      fileName := s.settingText ["audioFileName"] "audio"
      interruptible := switch false (s.setting "interruptible")
      waitForComplete := switch true (s.setting "waitForComplete") }
    toolIds := [toolId] }

/-! ## §6 All categories -/

/-- Compiles a step. -/
def compile (s : Step) : Attempt Compiled :=
  match s.category with
  | .start | .trigger | .condition => return {}
  | .message => s.compileMessage
  | .question => s.compileQuestion
  | .appointment => s.compileAppointment
  | .form | .formSubmission | .collectInfo => s.compileForm
  | .delay | .wait | .pause => s.compileDelay
  | .transfer | .transferCall | .phoneTransfer => s.compilePhoneTransfer
  | .agentTransfer | .transferAgent => s.compileAgentTransfer
  | .finish | .endCall | .hangup => s.compileEnd
  | .webhook | .apiCall | .tool => s.compileWebhook
  | .playAudio => s.compileAudio
  | .greeting | .unknown => s.compileUnrecognized

end CallFlow.Step
