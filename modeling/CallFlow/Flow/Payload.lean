import CallFlow.Flow.Basic
import CallFlow.Schema.Record

/-!
# Payloads of Flows

Steps and links are read from what the editor sends and written back with all they carry.

Reading a step is lenient. Settings may stand directly on the step when it has no `data`; null
for `data` or `position` means the same as nothing; a label of any kind is taken as text.

## Sections

1. Steps
2. Links
3. Flows
-/

namespace CallFlow

open Schema

/-! ## §1 Steps -/

namespace Position

/-- Reads a position; each coordinate is zero if it is missing. -/
def read : Json → Checked Position := readRecord fun m =>
  Position.mk
    <$> Field.optional "x" 0 readNumber m
    <*> Field.optional "y" 0 readNumber m

def toJson (p : Position) : Json := .obj [("x", .float p.x), ("y", .float p.y)]

end Position

namespace StepData

/-- Reads a label: a value that is no text is taken by its text. -/
def readLabel : Json → Checked (Option String)
  | .null => .accepted none
  | v => .accepted (some v.display)

/-- Reads settings; null means none. -/
def readConfig : Json → Checked Members
  | .null => .accepted []
  | v => readMembers v

/-- Reads what is stored with a step. -/
def read : Json → Checked StepData := readRecord fun m =>
  StepData.mk
    <$> Field.optional "label" none readLabel m
    <*> Field.optional "config" [] readConfig m
    <*> pure (extraMembers ["label", "config"] m)

/-- What is stored with a step, as a value. -/
def toJson (d : StepData) : Json :=
  .obj (Table.setAll
    [("label", Json.ofText? d.label), ("config", .obj (Json.portableMembers d.config))]
    (Json.portableMembers d.extra))

end StepData

namespace Step

/-- Moves settings that stand directly on a step into its data, if it has none. -/
def liftConfig (m : Members) : Members :=
  match Table.get? m "config", Table.get? m "data" with
  | some config, none => Table.set (Table.erase m "config") "data" (.obj [("config", config)])
  | _, _ => m

/-- Removes a member whose value is null. -/
def dropNull (m : Members) (name : String) : Members :=
  match Table.get? m name with
  | some .null => Table.erase m name
  | _ => m

/-- The members of a step in their regular form. -/
def normalize (m : Members) : Members := dropNull (dropNull (liftConfig m) "data") "position"

def schema : List Field := ["id", "type", "position", "data"]

/-- Reads the regular members of a step. -/
def ofMembers (m : Members) : Checked Step :=
  Step.mk
    <$> Field.required "id" readText m
    <*> Field.optional "type" none (readOptional readText) m
    <*> Field.optional "position" {} Position.read m
    <*> Field.optional "data" {} StepData.read m
    <*> pure (extraMembers schema m)

def read : Json → Checked Step := readRecord fun m => ofMembers (normalize m)

def toJson (s : Step) : Json :=
  .obj (Table.setAll
    [("id", .str s.id), ("type", Json.ofText? s.type), ("position", s.position.toJson),
      ("data", s.data.toJson)]
    (Json.portableMembers s.extra))

end Step

/-! ## §2 Links -/

namespace LinkData

/-- Reads what is stored with a link. -/
def read : Json → Checked LinkData := readRecord fun m =>
  LinkData.mk
    <$> Field.optional "condition" .null .accepted m
    <*> pure (extraMembers ["condition"] m)

/-- What is stored with a link, as a value. -/
def toJson (d : LinkData) : Json :=
  .obj (Table.setAll [("condition", d.condition.portable)] (Json.portableMembers d.extra))

end LinkData

namespace Link

/-- The key of the handle that a link leaves. -/
def sourceHandleKey : Field := { name := "source_handle", alias? := "sourceHandle" }

/-- The key of the handle that a link enters. -/
def targetHandleKey : Field := { name := "target_handle", alias? := "targetHandle" }

def schema : List Field :=
  ["id", "source", "target", "label", sourceHandleKey, targetHandleKey, "data"]

def ofMembers (m : Members) : Checked Link :=
  Link.mk
    <$> Field.optional "id" "" readText m
    <*> Field.required "source" readText m
    <*> Field.required "target" readText m
    <*> Field.optional "label" none (readOptional readText) m
    <*> Field.optional sourceHandleKey none (readOptional readText) m
    <*> Field.optional targetHandleKey none (readOptional readText) m
    <*> Field.optional "data" none (readOptional LinkData.read) m
    <*> pure (extraMembers schema m)

def read : Json → Checked Link := readRecord ofMembers

def toJson (l : Link) : Json :=
  .obj (Table.setAll
    [("id", .str l.id), ("source", .str l.source), ("target", .str l.target),
      ("label", Json.ofText? l.label), ("source_handle", Json.ofText? l.sourceHandle),
      ("target_handle", Json.ofText? l.targetHandle),
      ("data", (l.data.map LinkData.toJson).getD .null)]
    (Json.portableMembers l.extra))

end Link

/-! ## §3 Flows -/

/-- A list of a payload; a value that is not given means no items. -/
def listOrEmpty (v : Json) : Json := if v.isGiven then v else .arr []

/-- Reads a flow from its list of steps and its list of links. -/
def Flow.read (steps links : Json) : Checked Flow :=
  Flow.mk
    <$> (readList Step.read (listOrEmpty steps)).under "nodes"
    <*> (readList Link.read (listOrEmpty links)).under "edges"

end CallFlow
