import CallFlow.Flow.Category

/-!
# Authored Flows

A flow is what the editor stores: a list of steps and a list of links between them, in the
order in which they were declared. Neither has to be consistent: ids may repeat, and links may
name steps that are not there. A repeated id means its last step.

## Sections

1. Steps
2. Links
3. Flows
-/

namespace CallFlow

/-! ## §1 Steps -/

structure Position where
  x : Float := 0
  y : Float := 0

/-- What the editor stores with a step: its label, its settings, and anything else. -/
structure StepData where
  label : Option String := none
  config : Members := []
  extra : Members := []

/-- A step of a flow. -/
structure Step where
  id : String
  type : Option String := none
  position : Position := {}
  data : StepData := {}
  extra : Members := []

namespace Step

/-- The settings of a step. -/
def config (s : Step) : Members := s.data.config

/-- One of the settings; null if it is not there. -/
def setting (s : Step) (name : String) : Json := Json.member s.config name

/-- The category as it is written: in the settings, or else on the step. -/
def rawCategory (s : Step) : String :=
  Json.displayFirst [s.setting "type", Json.ofText? s.type] "unknown"

/-- The category of a step. -/
def category (s : Step) : Category := Category.parse s.rawCategory

/-- A value stored beside the settings rather than in them. -/
def dataField (s : Step) (name : String) : Json :=
  if name = "label" then Json.ofText? s.data.label else Json.member s.data.extra name

/-- Whether a step has a node of its own. -/
def isActionable (s : Step) : Bool := !s.category.isStructural

end Step

/-! ## §2 Links -/

/-- What the editor stores with a link. -/
structure LinkData where
  condition : Json := .null
  extra : Members := []

/-- A link from one step to another. Where it is fastened to a step has a name, its handle: a
step may offer one for every answer of the caller. -/
structure Link where
  id : String := ""
  source : String
  target : String
  label : Option String := none
  sourceHandle : Option String := none
  targetHandle : Option String := none
  data : Option LinkData := none
  extra : Members := []

/-- The condition that an author has written on a link, unless it is blank. -/
def Link.explicitCondition (l : Link) : Option String :=
  match l.data with
  | some { condition := .str text, .. } => if (Text.strip text).isEmpty then none else some text
  | _ => none

/-! ## §3 Flows -/

/-- A flow: its steps and links in order of declaration. -/
structure Flow where
  steps : List Step := []
  links : List Link := []

namespace Flow

/-- The step of an id: the last one declared with it. -/
def step? (f : Flow) (id : String) : Option Step :=
  f.steps.reverse.find? (·.id = id)

/-- The links that lead to an id, in order. -/
def linksInto (f : Flow) (id : String) : List Link := f.links.filter (·.target = id)

/-- The links that leave an id, in order. -/
def linksFrom (f : Flow) (id : String) : List Link := f.links.filter (·.source = id)

/-- The ids of the steps that some declaration makes a branch. -/
def branchIds (f : Flow) : List String :=
  ((f.steps.filter (·.category.isBranch)).map Step.id).eraseDups

/-- Whether some declaration makes the step a branch. -/
def isBranch (f : Flow) (id : String) : Bool :=
  f.steps.any fun s => s.id = id && s.category.isBranch

/-- Whether an id is declared, and its step is a trigger. -/
def isTrigger (f : Flow) (id : String) : Bool :=
  match f.step? id with
  | some s => s.category.isTrigger
  | none => false

end Flow

end CallFlow
