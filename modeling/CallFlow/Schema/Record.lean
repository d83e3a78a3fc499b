import CallFlow.Schema.Scalar

/-!
# Reading Lists, Dictionaries and Records

A record is an object with declared fields. A field has a name and may have an alias, which
is preferred; a violation names the field as the payload does. What is not declared is kept
as extra, ignored, or refused, as the record decides.
-/

namespace CallFlow.Schema

variable {α : Type}

/-! ## Lists and dictionaries -/

/-- Reads the items of a list, each placed under its position. -/
def readList (read : Json → Checked α) : Json → Checked (List α)
  | .arr items => Checked.all (fun e => (read e.1).under (toString e.2)) items.zipIdx
  | _ => .refuse .listType

/-- Reads an object of free form. -/
def readMembers : Json → Checked Members
  | .obj members => .accepted members
  | _ => .refuse .dictType

/-- Reads the values of a dictionary, each placed under its key. -/
def readDictionary (read : Json → Checked α) : Json → Checked (Table α)
  | .obj members =>
    Checked.all (fun e => ((read e.2).under e.1).map (e.1, ·)) members
  | _ => .refuse .dictType

def readRecord (read : Members → Checked α) : Json → Checked α
  | .obj members => read members
  | _ => .refuse .modelType

/-! ## Fields -/

/-- A declared field of a record. -/
structure Field where
  name : String
  alias? : Option String := none

/-- A field without an alias is given by its name. -/
instance : Coe String Field := ⟨fun name => { name }⟩

namespace Field

/-- The name under which the field is reported when it is missing. -/
def label (f : Field) : String := f.alias?.getD f.name

/-- The name that a payload uses for the field. -/
def nameIn (f : Field) (members : Members) : String :=
  match f.alias? with
  | some a => if Table.has members a then a else f.name
  | none => f.name

/-- Reads a field that must be there. -/
def required (f : Field) (read : Json → Checked α) (members : Members) : Checked α :=
  match Table.get? members (f.nameIn members) with
  | some v => (read v).under (f.nameIn members)
  | none => .rejected [⟨[f.label], .missing⟩]

/-- Reads a field that has a default. -/
def optional (f : Field) (default : α) (read : Json → Checked α) (members : Members) :
    Checked α :=
  match Table.get? members (f.nameIn members) with
  | some v => (read v).under (f.nameIn members)
  | none => .accepted default

end Field

/-! ## Members that are not declared -/

/-- The members that no declared field takes its value from. -/
def extraMembers (fields : List Field) (members : Members) : Members :=
  members.filter fun e => !(fields.any fun f => f.nameIn members = e.1)

/-- Refuses every member that is not declared. -/
def refuseExtra (fields : List Field) (members : Members) : Checked Unit :=
  match (extraMembers fields members).map fun e => (⟨[e.1], .extraForbidden⟩ : Violation) with
  | [] => .accepted ()
  | vs => .rejected vs

end CallFlow.Schema
