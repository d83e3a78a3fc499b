import CallFlow.Schema.Record
import CallFlow.Workflow.Report

/-!
# Settings

Settings come from three places: what is given, else the environment, else a default.
-/

namespace CallFlow

/-- The id of the edge from the start node to the entry, unless the settings choose another. -/
def Settings.defaultStartEdgeId : String := "start_to_entry"

/-- The level of the journal, unless the settings choose another. -/
def Settings.defaultLogLevel : String := "INFO"

/-- The settings of a compilation. -/
structure Settings where
  startNodeId : String := Workflow.defaultStartId
  startEdgeId : String := Settings.defaultStartEdgeId
  /-- Whether a link with an end that is no node is refused rather than dropped. -/
  strictDanglingEdges : Bool := false
  logLevel : String := Settings.defaultLogLevel
  telemetryDir : Option String := none
  deriving DecidableEq, Repr

namespace Settings

open Schema

/-- Reads the members of settings; members of other names do not matter. -/
def ofMembers (m : Members) : Checked Settings :=
  Settings.mk
    <$> Field.optional "start_node_id" Workflow.defaultStartId readText m
    <*> Field.optional "start_edge_id" defaultStartEdgeId readText m
    <*> Field.optional "strict_dangling_edges" false readTruth m
    <*> Field.optional "log_level" defaultLogLevel readText m
    <*> Field.optional "telemetry_dir" none (readOptional readText) m

/-- The words that switch a variable of the environment on. -/
def truthyWords : List String := ["1", "true", "yes", "on"]

/-- Whether a variable of the environment is switched on. -/
def isSwitchedOn (value : String) : Bool :=
  truthyWords.contains (Text.lowerAscii (Text.strip value))

/-- The settings that an environment makes. -/
def environmentMembers (environment : Table String) : Members :=
  let value := fun name => (Table.get? environment name).getD ""
  let folder := value "VFC_TELEMETRY_DIR"
  [("strict_dangling_edges", .bool (isSwitchedOn (value "VFC_STRICT_DANGLING_EDGES"))),
    ("log_level",
      .str (Text.upper ((Table.get? environment "VFC_LOG_LEVEL").getD defaultLogLevel))),
    ("telemetry_dir", if folder.isEmpty then .null else .str folder)]

/-- Reads settings from an environment. The given members count more, unless they are null. -/
def fromEnvironment (environment : Table String) (given : Members) : Checked Settings :=
  ofMembers (Table.setAll (environmentMembers environment)
    (given.filter fun e => !e.2.isNull))

def toJson (s : Settings) : Json :=
  .obj [("start_node_id", .str s.startNodeId), ("start_edge_id", .str s.startEdgeId),
    ("strict_dangling_edges", .bool s.strictDanglingEdges), ("log_level", .str s.logLevel),
    ("telemetry_dir", Json.ofText? s.telemetryDir)]

end Settings

end CallFlow
