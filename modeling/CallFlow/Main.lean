import CallFlow.CommandLine.Run
import Std.Time

/-!
# The Program

Takes the arguments, the environment and the files to the command line, and what comes back to
the outside: the document to standard output, the journal and failures to standard error, and
traces to their folder.
-/

namespace CallFlow.CommandLine

/-- The variables of the environment that are used. -/
def readEnvironment : IO (Table String) := do
  let names := ["VFC_STRICT_DANGLING_EDGES", "VFC_LOG_LEVEL", "VFC_TELEMETRY_DIR"]
  let found ← names.mapM fun name => do
    return (← IO.getEnv name).map fun value => (name, value)
  return found.filterMap fun e => e

/-- The text of a file, if it can be read. -/
def readIfThere (path : String) : IO (Option String) := do
  try return some (← IO.FS.readFile path) catch _ => return none

/-- A random text in the form 8-4-4-4-12. -/
def randomId : IO String := do
  let bytes ← IO.getRandomBytes 16
  let hex := bytes.toList.flatMap fun b => Text.hexDigits 2 b.toNat
  let part := fun (start length : Nat) => String.ofList ((hex.drop start).take length)
  return "-".intercalate [part 0 8, part 8 4, part 12 4, part 16 4, part 20 12]

/-- Writes the files of all traces into a folder. -/
def writeTraces (folder : String) (files : TraceFiles) : IO Unit := do
  IO.FS.createDirAll folder
  for (place, text) in files do
    let file ← IO.FS.Handle.mk (folder ++ "/" ++ place.name) .append
    file.putStr text

/-- Carries out an order in the real world. -/
def carryOutOrder (order : Order) : IO UInt32 := do
  let environment ← readEnvironment
  let input ← readIfThere (order.flowFile.getD "")
  let id ← randomId
  let now ← Std.Time.Timestamp.now
  let world : World := {
    environment
    textAt := fun _ => input
    canWrite := fun _ => true
    newId := fun _ => id
    time := fun _ => (Std.Time.DateTime.ofTimestamp now .UTC).toISO8601String }
  let outcome := carryOut world order
  for line in outcome.journal.fromRank (leastRank outcome.logLevel) do
    IO.eprintln (line.level.name ++ ": " ++ line.text)
  IO.print outcome.stdout
  match outcome.written with
  | some (path, text) => IO.FS.writeFile path text
  | none => pure ()
  match outcome.traces with
  | some (folder, files) => writeTraces folder files
  | none => pure ()
  match outcome.exit with
  | .ok code => return code.toUInt32
  | .error e =>
    IO.eprintln e.message
    return 1

end CallFlow.CommandLine

/-- The program: compiles the flow that the arguments name. -/
def main (arguments : List String) : IO UInt32 := do
  match CallFlow.CommandLine.read arguments with
  | .help => IO.println CallFlow.CommandLine.usage; return 0
  | .refused => IO.eprintln CallFlow.CommandLine.usage; return 2
  | .order order => CallFlow.CommandLine.carryOutOrder order
