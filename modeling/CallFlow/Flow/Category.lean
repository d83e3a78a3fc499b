import CallFlow.Json.Display
import CallFlow.Text.Blank

/-!
# Step Categories

The category of a step decides what it compiles to and whether the links that leave it wait
for the caller. Categories with the same treatment form groups.

## Sections

1. Categories and their names
2. Groups
-/

namespace CallFlow

/-! ## §1 Categories and their names -/

/-- What a step of a flow does. Steps of no known category are `unknown`. -/
inductive Category where
  | start
  | trigger
  | message
  | greeting
  | question
  | appointment
  | form
  | formSubmission
  | collectInfo
  | delay
  | wait
  | pause
  | transfer
  | transferCall
  | phoneTransfer
  | agentTransfer
  | transferAgent
  | finish
  | endCall
  | hangup
  | webhook
  | apiCall
  | tool
  | playAudio
  | condition
  | unknown
  deriving DecidableEq, Repr

namespace Category

def name : Category → String
  | start => "start"
  | trigger => "trigger"
  | message => "message"
  | greeting => "greeting"
  | question => "question"
  | appointment => "appointment"
  | form => "form"
  | formSubmission => "form_submission"
  | collectInfo => "collect_info"
  | delay => "delay"
  | wait => "wait"
  | pause => "pause"
  | transfer => "transfer"
  | transferCall => "transfer_call"
  | phoneTransfer => "phone_transfer"
  | agentTransfer => "agent_transfer"
  | transferAgent => "transfer_agent"
  | finish => "end"
  | endCall => "end_call"
  | hangup => "hangup"
  | webhook => "webhook"
  | apiCall => "api_call"
  | tool => "tool"
  | playAudio => "play_audio"
  | condition => "condition"
  | unknown => "unknown"

def all : List Category :=
  [start, trigger, message, greeting, question, appointment, form, formSubmission, collectInfo,
    delay, wait, pause, transfer, transferCall, phoneTransfer, agentTransfer, transferAgent,
    finish, endCall, hangup, webhook, apiCall, tool, playAudio, condition, unknown]

/-- The category of a name, which may have spaces around it. -/
def parse (raw : String) : Category :=
  let name := Text.strip raw
  (all.find? (·.name = name)).getD unknown

/-! ## §2 Groups -/

/-- Steps that stand for the beginning of a call; the injected start node replaces them. -/
def isTrigger : Category → Bool
  | start | trigger => true
  | _ => false

/-- Steps that only choose between the links that leave them. -/
def isBranch : Category → Bool
  | condition => true
  | _ => false

/-- Steps that have no node of their own. -/
def isStructural (c : Category) : Bool := c.isTrigger || c.isBranch

/-- Steps that collect the answers to a form. -/
def isForm : Category → Bool
  | form | formSubmission | collectInfo => true
  | _ => false

/-- Steps that let some time pass. -/
def isDelay : Category → Bool
  | delay | wait | pause => true
  | _ => false

/-- Steps that hand the call over to a phone number. -/
def isPhoneTransfer : Category → Bool
  | transfer | transferCall | phoneTransfer => true
  | _ => false

/-- Steps that hand the call over to another agent. -/
def isAgentTransfer : Category → Bool
  | agentTransfer | transferAgent => true
  | _ => false

/-- Steps that end the call. -/
def isTerminal : Category → Bool
  | finish | endCall | hangup => true
  | _ => false

/-- Steps that call a service. -/
def isWebhook : Category → Bool
  | webhook | apiCall | tool => true
  | _ => false

end Category

end CallFlow
