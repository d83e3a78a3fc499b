import CallFlow.Attempt
import CallFlow.Flow.Basic
import CallFlow.Text.Slice

/-!
# The Entry of a Flow

A conversation enters a flow at one step, which is chosen in this order: the step that the
first link of the first trigger leads to, if it is actionable; the first actionable step that
no link leads to; the first actionable step.
-/

namespace CallFlow

/-- How the entry of a flow was chosen. -/
inductive EntryChoice where
  | trigger
  | root
  | firstActionable
  | none
  deriving DecidableEq, Repr

def EntryChoice.name : EntryChoice → String
  | trigger => "trigger"
  | root => "root"
  | firstActionable => "first_actionable"
  | none => "none"

/-- The entry of a flow, and the line that is spoken there first, if it is known. -/
structure Entry where
  step : Option Step
  choice : EntryChoice
  firstMessage : Option String

/-- The id of the entry step. -/
def Entry.stepId (e : Entry) : Option String := e.step.map Step.id

namespace Flow

/-- The first step that is a trigger. -/
def firstTrigger? (f : Flow) : Option Step := f.steps.find? (·.category.isTrigger)

/-- The actionable step that the first link of the first trigger leads to. -/
def triggered? (f : Flow) : Option Step := do
  let trigger ← f.firstTrigger?
  let link ← f.links.find? (·.source = trigger.id)
  (f.step? link.target).filter Step.isActionable

/-- The first actionable step that no link leads to. -/
def root? (f : Flow) : Option Step :=
  f.steps.find? fun s => s.isActionable && !(f.links.any (·.target = s.id))

/-- The first actionable step. -/
def firstActionable? (f : Flow) : Option Step := f.steps.find? Step.isActionable

/-- The entry step, and how it was chosen. -/
def chooseEntry (f : Flow) : Option Step × EntryChoice :=
  match f.triggered?, f.root?, f.firstActionable? with
  | some s, _, _ => (some s, .trigger)
  | none, some s, _ => (some s, .root)
  | none, none, some s => (some s, .firstActionable)
  | none, none, none => (none, .none)

/-- The line that a message step speaks. -/
def firstMessage? (s : Step) : Option String :=
  match s.category, s.setting "message" with
  | .message, .str text => if text.isEmpty then none else some text
  | _, _ => none

/-- Finds the entry of a flow. -/
def entry (f : Flow) : Attempt Entry := do
  let (step, choice) := f.chooseEntry
  match step with
  | none => return { step, choice, firstMessage := none }
  | some s =>
    match firstMessage? s with
    | none => return { step, choice, firstMessage := none }
    | some text =>
      Attempt.info ("First message extracted from entry node " ++ s.id ++ ": " ++
        Text.quoted (Text.preview text))
      return { step, choice, firstMessage := some text }

end Flow

end CallFlow
