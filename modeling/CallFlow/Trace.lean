import CallFlow.Attempt
import CallFlow.Json.Printer
import CallFlow.Schema.Record
import CallFlow.Text.Lines

/-!
# Traces

A trace is the list of events of one compilation. A store keeps traces in memory and, if it
has a folder, appends every event to the file of its trace as one line.

New traces get ids from a supply, and events their time from a clock. Both are given to the
store from outside, and so are the folders that there are: a trace id is used as a path, and
where a path leads is for the file system to say.

## Sections

1. Events
2. Files
3. Stores
4. Recording
5. Looking up
-/

namespace CallFlow

/-! ## §1 Events -/

/-- Something that happened. -/
structure TraceEvent where
  traceId : String
  event : String
  timestamp : String
  data : Members

namespace TraceEvent

def toJson (e : TraceEvent) : Json :=
  .obj [("trace_id", .str e.traceId), ("event", .str e.event), ("timestamp", .str e.timestamp),
    ("data", .obj e.data)]

/-- The line of an event in the file of its trace. -/
def line (e : TraceEvent) : String := e.toJson.sortMembers.render .line

end TraceEvent

/-! ## §2 Files -/

/-- The place of a file. -/
structure FilePlace where
  /-- The folder that the file lies in, by its parts from the outermost folder on. -/
  folder : List String
  name : String
  deriving DecidableEq, Repr

namespace FilePlace

/-- Follows the parts of a path from a folder to a file, if there are all the folders on the
way. The outermost folder lies in itself. -/
def follow (isFolder : List String → Bool) : List String → List String → Option FilePlace
  | _, [] => none
  | folder, [name] => some ⟨folder, name⟩
  | folder, part :: rest =>
    if part = ".." then follow isFolder folder.dropLast rest
    else if isFolder (folder ++ [part]) then follow isFolder (folder ++ [part]) rest
    else none

/-- The parts of a path. -/
def parts (path : String) : List String :=
  ((path.toList.splitOn '/').map String.ofList).filter fun p => p ≠ "" && p ≠ "."

/-- The place of the file of a trace for a store with the given folder. A path that begins with
a slash starts from the outermost folder. -/
def locate (isFolder : List String → Bool) (folder : List String) (traceId : String) :
    Option FilePlace :=
  let path := traceId ++ ".jsonl"
  follow isFolder (if path.startsWith "/" then [] else folder) (parts path)

/-- A folder for traces. -/
def newFolder : List String := ["tmp", "traces"]

/-- The place of the file of a trace, where there is a new folder for traces and no other folder
but those that it lies in. -/
def ofTrace? : String → Option FilePlace := locate (·.isPrefixOf newFolder) newFolder

end FilePlace

/-- Files with their texts, in order of creation. -/
abbrev TraceFiles := List (FilePlace × String)

/-- Appends a text to a file, which is created if it does not exist. -/
def TraceFiles.append : TraceFiles → FilePlace → String → TraceFiles
  | [], place, more => [(place, more)]
  | (p, text) :: rest, place, more =>
    if p = place then (p, text ++ more) :: rest
    else (p, text) :: TraceFiles.append rest place more

/-! ## §3 Stores -/

/-- A store of traces. -/
structure TraceStore where
  /-- The supply of ids. -/
  newId : Nat → String
  /-- The clock, by the number of events before. -/
  time : Nat → String
  /-- The place of the file of a trace, if the folder for it exists. Traces whose files have the
  same place share one file. -/
  locate : String → Option FilePlace := FilePlace.ofTrace?
  /-- How many ids have been taken. -/
  taken : Nat := 0
  /-- How many events have been recorded. -/
  recorded : Nat := 0
  traces : Table (List TraceEvent) := []
  /-- The files that have been written, if the store has a folder. -/
  disk : Option TraceFiles := none

namespace TraceStore

/-- An empty store in a file system that tells where the files of traces are. -/
def createIn (locate : String → Option FilePlace) (newId time : Nat → String)
    (onDisk : Bool) : TraceStore :=
  { newId, time, locate, disk := if onDisk then some [] else none }

/-- An empty store. -/
def create (newId time : Nat → String) (onDisk : Bool) : TraceStore :=
  createIn FilePlace.ofTrace? newId time onDisk

/-! ## §4 Recording -/

/-- Opens a trace, if it is not there already. -/
def openTrace (s : TraceStore) (traceId : String) : TraceStore :=
  if Table.has s.traces traceId then s
  else { s with traces := Table.set s.traces traceId [] }

/-- Adds an event to its trace in memory. -/
def remember (s : TraceStore) (e : TraceEvent) : TraceStore :=
  { s with
    recorded := s.recorded + 1
    traces := Table.addToGroup s.traces e.traceId e }

/-- Adds an event to the file of its trace. -/
def persist (s : TraceStore) (e : TraceEvent) : TraceStore × Except Failure TraceEvent :=
  match s.disk with
  | none => (s, .ok e)
  | some files =>
    match s.locate e.traceId with
    | none => (s, .error (.noTraceFolder e.traceId))
    | some place =>
      ({ s with disk := some (TraceFiles.append files place (e.line ++ "\n")) }, .ok e)

/-- The first of some names that data uses. -/
def reserved? (names : List String) (data : Members) : Option String :=
  names.find? (Table.has data)

/-- Records an event. Its data may not use the names of what an event is recorded with. -/
def log (s : TraceStore) (traceId event : String) (data : Members) :
    TraceStore × Except Failure TraceEvent :=
  match reserved? ["self", "trace_id", "event"] data with
  | some key => (s, .error (.reservedKey key))
  | none =>
    let e := { traceId, event, timestamp := s.time s.recorded, data }
    -- Memory first: an event that cannot be written into a file is still remembered.
    (s.remember e).persist e

/-- Records an event whose trace id and name are yet to be read. -/
def logPayload (s : TraceStore) (traceId event : Json) (data : Members) :
    TraceStore × Except Failure TraceEvent :=
  match reserved? ["self", "trace_id", "event"] data with
  | some key => (s, .error (.reservedKey key))
  | none =>
    let read := Prod.mk <$> (Schema.readText traceId).under "trace_id"
      <*> (Schema.readText event).under "event"
    match read with
    | .accepted (traceId, event) => s.log traceId event data
    | .rejected vs => (s, .error (.rejected vs))

/-- Records several events of a trace, until one fails. -/
def logAll (s : TraceStore) (traceId : String) :
    List (String × Members) → TraceStore × Except Failure Unit
  | [] => (s, .ok ())
  | (event, data) :: rest =>
    match s.log traceId event data with
    | (s, .ok _) => s.logAll traceId rest
    | (s, .error e) => (s, .error e)

/-- Starts a trace with a new id, and records that it started. -/
def start (s : TraceStore) (label : String) (data : Members) :
    TraceStore × Except Failure String :=
  match reserved? ["self", "label"] data with
  | some key => (s, .error (.reservedKey key))
  | none =>
    let traceId := label ++ "-" ++ s.newId s.taken
    let s := { s with taken := s.taken + 1 }.openTrace traceId
    match s.log traceId "compile_started" data with
    | (s, .ok _) => (s, .ok traceId)
    | (s, .error e) => (s, .error e)

/-! ## §5 Looking up -/

/-- The events of a trace, oldest first. -/
def events (s : TraceStore) (traceId : String) : List TraceEvent :=
  (Table.get? s.traces traceId).getD []

/-- A summary of a trace. -/
def summarize (s : TraceStore) (traceId : String) : Json :=
  let events := s.events traceId
  .obj [("trace_id", .str traceId), ("event_count", .int events.length),
    ("events", .arr (events.map TraceEvent.toJson))]

/-- The files of a store, each with its lines, if the store has a folder. -/
def files (s : TraceStore) : Option (List (FilePlace × List String)) :=
  s.disk.map fun files => files.map fun file => (file.1, Text.lines file.2)

/-- The lines of the file of a trace, if there is one. -/
def fileLines? (s : TraceStore) (traceId : String) : Option (List String) := do
  let files ← s.files
  let place ← s.locate traceId
  (files.find? (·.1 = place)).map Prod.snd

end TraceStore

end CallFlow
