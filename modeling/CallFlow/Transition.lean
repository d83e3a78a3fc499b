import CallFlow.Prompt
import CallFlow.Text.Case
import CallFlow.Workflow.Basic

/-!
# Conditions on Direct Links

A link between two steps that have nodes becomes an edge, and its condition is found in this
order: the text that the author wrote on the link; the meaning of the handle that the link
leaves; and whether the step before waits for the caller.

## Sections

1. Fixed texts
2. Handles
3. Waiting
4. Links
-/

namespace CallFlow.Transition

/-! ## §1 Fixed texts -/

/-- The caller has spoken at all. -/
def anyResponse : String :=
  "The user has verbally responded with any answer. Continue to the next step in the workflow."

/-- The caller has answered a question that is not quoted. -/
def questionAnswered : String :=
  "The user has provided an answer or response to the question. They have given information, " ++
  "a number, a name, an address, or any substantive reply. Proceed to the next step."

/-- The caller has agreed. -/
def acceptance : String :=
  "The user agreed, said yes, confirmed positively, or expressed interest."

/-- The caller has declined. -/
def rejection : String := "The user declined, said no, refused, or expressed disinterest."

/-- The caller wants to speak with somebody else. -/
def transferIntent : String :=
  "The user requested to speak with a human, transfer the call, or be connected to support."

/-- The caller has not understood. -/
def confusion : String :=
  "The user sounded confused or asked for clarification. Ask again politely."

/-- The caller has said nothing. -/
def silence : String :=
  "The user did not respond or remained silent. Ask again or prompt gently."

/-- The agent has said the phrase that ends a form. -/
def formComplete : String :=
  "The agent has said '" ++ Text.dropLast Prompt.formPhrase ++
  "' or a very similar confirmation phrase indicating the form submission is complete. " ++
  "Do not transition until this phrase is spoken."

/-- The agent has said the phrase that ends an appointment. -/
def appointmentComplete : String :=
  "The agent has said '" ++ Text.dropLast Prompt.appointmentPhrase ++
  "' or a very similar confirmation phrase indicating the appointment is confirmed. " ++
  "Do not transition until this phrase is spoken."

/-! ## §2 Handles -/

/-- The handles with a meaning of their own, and what they mean. -/
def handleMeanings : List (List String × String) := [
  (["yes", "true", "accept", "agree"], acceptance),
  (["no", "false", "reject", "decline"], rejection),
  (["transfer", "human", "agent"], transferIntent),
  (["question", "confused", "clarify"], confusion),
  (["silence", "noresponse", "timeout"], silence)]

/-- What a handle means, if it has a meaning of its own. Letter case does not matter. -/
def handleMeaning? (handle : Option String) : Option String :=
  let word := Text.lowerAscii (handle.getD "")
  (handleMeanings.find? fun m => m.1.contains word).map Prod.snd

/-! ## §3 Waiting -/

/-- Whether steps of a category wait for the caller unless their settings say otherwise. -/
def waitsByDefault (c : Category) : Bool :=
  match c with
  | .question | .appointment => true
  | _ => c.isForm

/-- Whether a step waits for the caller. -/
def waitsForResponse (c : Category) (config : Members) : Bool :=
  match Json.member config "waitForResponse" with
  | .bool explicit => explicit
  | _ => waitsByDefault c

/-- How much of a question is quoted in a condition. -/
def questionQuoteLength : Nat := 100

/-- How much of a message is quoted in a condition. -/
def messageQuoteLength : Nat := 80

/-- The beginning of a text, without quotes. -/
def quote (limit : Nat) (text : String) : String := Text.removeQuotes (Text.takeFirst limit text)

/-- The condition that quotes a question. -/
def questionCondition (question : String) : String :=
  "The agent just asked: \"" ++ quote questionQuoteLength question ++
  "\" and the user has now responded specifically to THIS question. The user's response " ++
  "directly addresses what was just asked. Proceed only after the user responds to this " ++
  "specific question."

/-- The condition that quotes a message. -/
def messageCondition (message : String) : String :=
  "The agent said: \"" ++ quote messageQuoteLength message ++
  "...\" and is waiting for the user to respond before proceeding. Wait for the user to speak."

/-- What a step waits for. -/
def waitText (c : Category) (config : Members) : String :=
  match c with
  | .question =>
    match Json.givenMember? config ["message", "question", "text"] with
    | some question => questionCondition question.display
    | none => questionAnswered
  | .form | .formSubmission | .collectInfo => formComplete
  | .appointment => appointmentComplete
  | .message | .greeting =>
    match Json.givenMember? config ["message", "text"] with
    | some message => messageCondition message.display
    | none => anyResponse
  | _ => anyResponse

/-! ## §4 Links -/

/-- The condition on a direct link that leaves the given step, if that step is declared. -/
def ofLink (source : Option Step) (link : Link) : Condition :=
  match link.explicitCondition with
  | some text => .llm text
  | none =>
    match handleMeaning? link.sourceHandle with
    | some text => .llm text
    | none =>
      let category := (source.map Step.category).getD .unknown
      let config := (source.map Step.config).getD []
      if waitsForResponse category config then .llm (waitText category config)
      else .unconditional

end CallFlow.Transition
