import CallFlow.CommandLine.Arguments
import CallFlow.Json.Reader
import CallFlow.Service

/-!
# Running the Command Line

The command line compiles one flow and prints the workflow with a summary. The exit code says
whether the workflow is valid.
-/

namespace CallFlow.CommandLine

/-- What a run may use of the world around it. -/
structure World where
  environment : Table String
  /-- The text of a file, if there is one at the path. -/
  textAt : String → Option String
  /-- Whether a file can be written at a path. -/
  canWrite : String → Bool
  /-- The supply of trace ids. -/
  newId : Nat → String
  /-- The clock of traces. -/
  time : Nat → String

/-- What a run has done. -/
structure Outcome where
  journal : Journal := []
  stdout : String := ""
  /-- The file that was written: its path and its text. -/
  written : Option (String × String) := none
  /-- The traces that were written: their folder and their files. -/
  traces : Option (String × TraceFiles) := none
  /-- The name of the level from which the journal is shown. -/
  logLevel : String := Settings.defaultLogLevel
  /-- The exit code, or the failure that ended the run. -/
  exit : Except Failure Nat

/-- The document at the text of a flow. -/
def readDocument (text : String) : Attempt Json :=
  match Json.parse text with
  | .ok v => return v
  | .error .malformed => .fail .malformedDocument
  | .error (.tooManyDigits count) => .fail (.tooManyDigits Json.maxIntegerDigits count)

/-- The text of the flow that is ordered: on the command line itself, or in a file. -/
def flowText (world : World) (o : Order) : Attempt String :=
  let text := o.flowJson.getD ""
  let path := o.flowFile.getD ""
  if !text.isEmpty then return text
  else if !path.isEmpty then
    match world.textAt path with
    | some text => return text
    | none => .fail (.noSuchFile path)
  else .fail .noFlowNamed

/-- The flow that is ordered. -/
def loadFlow (world : World) (o : Order) : Attempt Flow := do
  match ← readDocument (← flowText world o) with
  | .obj m => Attempt.ofChecked (Flow.read (Json.member m "nodes") (Json.member m "edges"))
  | _ => .fail .noFlowDocument

/-- The settings that are ordered. -/
def settings (world : World) (o : Order) : Schema.Checked Settings :=
  let level := o.logLevel.getD ""
  Settings.fromEnvironment world.environment
    [("strict_dangling_edges", if o.strict then .bool true else .null),
      ("log_level", if level.isEmpty then .null else .str (Text.upper level))]

/-- The document that is printed for a compiled flow. -/
def document (v : ValidatedCompilation) : Json :=
  .obj (("workflow", v.compilation.workflow.toJson) :: v.summaryMembers)

/-- The settings and the flow that are ordered. -/
def prepare (world : World) (o : Order) : Attempt (Settings × Flow) := do
  let settings ← Attempt.ofChecked (settings world o)
  return (settings, ← loadFlow world o)

/-- The traces that a service has written. -/
def tracesOf (service : CompileService) : Option (String × TraceFiles) := do
  let folder ← service.settings.telemetryDir
  let store ← service.traces
  return (folder, ← store.disk)

/-- The code that a run ends with: zero if the workflow is valid, one if it is not. -/
def exitCode (v : ValidatedCompilation) : Nat := if v.report.valid then 0 else 1

/-- Prints a compiled flow, and writes it into a file as well if that is ordered. -/
def report (world : World) (o : Order) (journal : Journal) (v : ValidatedCompilation) :
    Outcome :=
  let text := (document v).render (.block 2)
  let stdout := text ++ "\n"
  let path := o.outputFile.getD ""
  if path.isEmpty then { journal, stdout, exit := .ok (exitCode v) }
  else if world.canWrite path then
    { journal, stdout, written := some (path, text), exit := .ok (exitCode v) }
  else { journal, stdout, exit := .error (.noSuchFile path) }

/-- Carries out an order. -/
def carryOut (world : World) (o : Order) : Outcome :=
  let prepared := prepare world o
  match prepared.outcome with
  | .error e => { journal := prepared.journal, exit := .error e }
  | .ok (settings, flow) =>
    let (service, attempt) :=
      (CompileService.create settings none world.newId world.time).compile flow
    let journal := prepared.journal ++ attempt.journal
    let outcome : Outcome := match attempt.outcome with
      | .error e => { journal, exit := .error e }
      | .ok v => report world o journal v
    { outcome with traces := tracesOf service, logLevel := settings.logLevel }

/-- The usage of the command line. -/
def usage : String :=
  "usage: [-h] [--flow-json FLOW_JSON] [--flow-file FLOW_FILE] [--output-file OUTPUT_FILE] " ++
  "[--strict] [--log-level LOG_LEVEL]"

end CallFlow.CommandLine
