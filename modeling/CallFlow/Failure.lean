import CallFlow.Schema.Violation

/-!
# Failures

The causes for which a step of the work gives no result, each with its message.
-/

namespace CallFlow

/-- Why a link does not become an edge. -/
inductive DropReason where
  | sourceMissing
  | targetMissing
  deriving DecidableEq, Repr

/-- The words for a reason. -/
def DropReason.text : DropReason → String
  | sourceMissing => "source node was not compiled"
  | targetMissing => "target node was not compiled"

/-- Why there is no result. -/
inductive Failure where
  /-- A payload violates its schema. -/
  | rejected (violations : List Schema.Violation)
  /-- The flow has no steps. -/
  | emptyFlow
  /-- A link of the flow has an end that is no node, and such links are refused. -/
  | danglingLink (linkId : Option String) (source target : String) (reason : DropReason)
  /-- The workflow has errors, and its user insists on a valid one. -/
  | invalidWorkflow (errors : List String)
  /-- A setting that lists things is neither a list, a text nor an object. -/
  | notAListing
  /-- A delay is infinite. -/
  | infiniteDelay
  /-- A branch is asked for that is not declared. -/
  | undeclaredBranch (id : String)
  /-- The store of forms could not be asked. -/
  | storeUnavailable (reason : String)
  /-- The data of an event has a key that the event itself uses. -/
  | reservedKey (key : String)
  /-- A document does not follow the grammar of JSON. -/
  | malformedDocument
  /-- A whole number in a document has too many digits. -/
  | tooManyDigits (limit count : Nat)
  /-- A document is no object, so it holds no flow. -/
  | noFlowDocument
  /-- The command line names no flow. -/
  | noFlowNamed
  /-- There is no file at a path, or no folder for it. -/
  | noSuchFile (path : String)
  /-- The file of a trace would lie in a folder that does not exist. -/
  | noTraceFolder (traceId : String)
  deriving DecidableEq, Repr

/-- The message of a failure. -/
def Failure.message : Failure → String
  | rejected violations => Schema.violationsText violations
  | emptyFlow => "Flow has no nodes to compile."
  | danglingLink linkId source target reason =>
    let id := if (linkId.getD "").isEmpty then "?" else linkId.getD ""
    "Edge " ++ id ++ " (" ++ source ++ " -> " ++ target ++ ") " ++ reason.text
  | invalidWorkflow errors =>
    let text := "; ".intercalate errors
    if text.isEmpty then "Workflow failed validation." else text
  | notAListing => "A setting that lists things cannot be walked through."
  | infiniteDelay => "cannot convert float infinity to integer"
  | undeclaredBranch id => "There is no branch " ++ id ++ "."
  | storeUnavailable reason => reason
  | reservedKey key => "The key " ++ key ++ " is reserved."
  | malformedDocument => "The document does not follow the grammar of JSON."
  | tooManyDigits limit count =>
    "Exceeds the limit (" ++ toString limit ++ " digits) for integer string conversion: " ++
      "value has " ++ toString count ++ " digits; use sys.set_int_max_str_digits() to " ++
      "increase the limit"
  | noFlowDocument => "Flow payload must be a JSON object with 'nodes' and 'edges'."
  | noFlowNamed => "Provide --flow-json or --flow-file."
  | noSuchFile path => "There is no file " ++ path ++ "."
  | noTraceFolder traceId => "There is no folder for the file of trace " ++ traceId ++ "."

end CallFlow
