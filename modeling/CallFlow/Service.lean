import CallFlow.Compiler
import CallFlow.Form.Enrichment

/-!
# The Compile Service

A service copies stored forms into a flow, compiles it and validates the result. It keeps the
traces of its compilations, if its settings name a folder for them. An empty flow is no
failure here: it gives an empty workflow, which validation then refuses.
-/

namespace CallFlow

/-- A compiled flow with the findings on its workflow. -/
structure ValidatedCompilation where
  compilation : Compilation
  report : Report

namespace ValidatedCompilation

/-- The members of a summary: what was compiled besides the workflow, and the findings. -/
def summaryMembers (v : ValidatedCompilation) : Members :=
  v.compilation.summaryMembers ++ [("validation", v.report.toJson)]

end ValidatedCompilation

/-- A service with its settings, the place of its stored forms, and its traces. -/
structure CompileService where
  settings : Settings := {}
  lookup : Option FormLookup := none
  traces : Option TraceStore := none

namespace CompileService

/-- A service, which keeps traces if its settings name a folder. -/
def create (settings : Settings) (lookup : Option FormLookup) (newId time : Nat → String) :
    CompileService :=
  { settings, lookup
    traces := if (settings.telemetryDir.getD "").isEmpty then none
      else some (TraceStore.create newId time true) }

/-- The result for an empty flow. -/
def emptyResult : ValidatedCompilation :=
  let compilation : Compilation := {}
  { compilation, report := compilation.workflow.validate Workflow.defaultStartId }

/-- Validates a compiled flow, and writes the findings into the journal. -/
def validated (compilation : Compilation) : Attempt ValidatedCompilation := do
  let report := compilation.validate
  if !report.valid then
    Attempt.warn ("Workflow validation errors: " ++ (Json.ofTexts report.errors).display)
  if !report.warnings.isEmpty then
    Attempt.warn ("Workflow validation warnings: " ++ (Json.ofTexts report.warnings).display)
  return { compilation, report }

/-- Copies stored forms into a flow, if the service has a place to look them up. -/
def prepare (s : CompileService) (f : Flow) : Attempt Flow :=
  match s.lookup with
  | none => return f
  | some lookup => f.enrich lookup

/-- Compiles a flow with or without a trace. -/
def compileFlow (s : CompileService) (f : Flow) : CompileService × Attempt Compilation :=
  match s.traces with
  | none => (s, f.compile s.settings)
  | some store =>
    let (store, attempt) := f.compileTraced s.settings store
    ({ s with traces := some store }, attempt)

/-- Compiles and validates a flow. -/
def compile (s : CompileService) (f : Flow) : CompileService × Attempt ValidatedCompilation :=
  if f.steps.isEmpty then
    (s, do
      Attempt.info "Flow has no nodes; returning an empty workflow"
      return emptyResult)
  else
    let prepared := s.prepare f
    match prepared.outcome with
    | .error e => (s, ⟨prepared.journal, .error e⟩)
    | .ok f =>
      let (s, attempt) := s.compileFlow f
      (s, do
        -- The flow is known already; what is needed here is what the journal says about it.
        let _ ← prepared
        validated (← attempt))

end CompileService

/-- Compiles and validates a flow once. -/
def Flow.compileOnce (f : Flow) (settings : Settings) (lookup : Option FormLookup)
    (newId time : Nat → String) : Attempt ValidatedCompilation :=
  ((CompileService.create settings lookup newId time).compile f).2

end CallFlow
