import CallFlow.Service

/-!
# The Compile Endpoint

A request holds the steps and links of a flow. It is answered with the compiled workflow, or
with the reason why there is none: status 422 if the request itself is malformed, status 400 if
the flow is refused. Any other failure is not the caller's, and is passed on.
-/

namespace CallFlow.Endpoint

open Schema

/-- A request to compile a flow. -/
structure Request where
  nodes : List Members := []
  edges : List Members := []
  strictDanglingEdges : Option Bool := none

def Request.read : Json → Checked Request := readRecord fun m =>
  Request.mk
    <$> Field.optional "nodes" [] (readList readMembers) m
    <*> Field.optional "edges" [] (readList readMembers) m
    <*> Field.optional "strict_dangling_edges" none (readOptional readTruth) m

/-- A response: its status, the name of its content, and the content. -/
structure Response where
  status : Nat
  contentName : String
  content : Json

/-- A response that holds a document. -/
def Response.ok (body : Json) : Response := ⟨200, "body", body⟩

/-- A response that says why there is no document. -/
def Response.refusal (status : Nat) (detail : String) : Response :=
  ⟨status, "detail", .str detail⟩

/-- Whether a failure is told to the caller of the endpoint. -/
def isRefusal : Failure → Bool
  | .rejected _ | .emptyFlow | .danglingLink .. => true
  | _ => false

/-- The document for a compiled flow. -/
def document (v : ValidatedCompilation) : Json :=
  .obj [("workflow", v.compilation.workflow.toJson),
    ("summary", .obj v.compilation.summaryMembers), ("valid", .bool v.report.valid),
    ("errors", Json.ofTexts v.report.errors), ("warnings", Json.ofTexts v.report.warnings)]

/-- The settings for a request. -/
def Request.settings (r : Request) (environment : Table String) : Checked Settings :=
  Settings.fromEnvironment environment
    [("strict_dangling_edges", (r.strictDanglingEdges.map Json.bool).getD .null)]

/-- The flow of a request. -/
def Request.flow (r : Request) : Checked Flow :=
  Flow.read (.arr (r.nodes.map Json.obj)) (.arr (r.edges.map Json.obj))

/-- Turns failures that are told to the caller into responses. -/
def respond (a : Attempt ValidatedCompilation) : Attempt Response :=
  match a.outcome with
  | .ok v => ⟨a.journal, .ok (.ok (document v))⟩
  | .error e =>
    if isRefusal e then ⟨a.journal, .ok (.refusal 400 e.message)⟩ else ⟨a.journal, .error e⟩

/-- Answers a request to compile a flow. -/
def compile (environment : Table String) (body : Json) (newId time : Nat → String) :
    Attempt Response :=
  match Request.read body with
  | .rejected vs => return .refusal 422 (violationsText vs)
  | .accepted request => do
    let settings ← Attempt.ofChecked (request.settings environment)
    respond do
      let flow ← Attempt.ofChecked request.flow
      flow.compileOnce settings none newId time

/-- Answers a request for the state of the service. -/
def health : Response := .ok (.obj [("status", .str "ok")])

end CallFlow.Endpoint
