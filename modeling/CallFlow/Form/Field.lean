import CallFlow.Schema.Record

/-!
# Form Fields

A form asks for its fields one after the other. A field keeps what its payload says beyond the
declared keys; when a payload spells a key both ways, the camel-case spelling counts and the
other one is such an extra, which takes the place of the declared key when the field is
written with it.
-/

namespace CallFlow

/-- One question of a form. -/
structure FormField where
  id : String := ""
  question : String := ""
  fieldType : String := "text"
  options : Option (List String) := none
  isRequired : Bool := false
  order : Int := 0
  extra : Members := []

namespace FormField

open Schema

/-- The key of the kind of answer that is expected. -/
def fieldTypeKey : Field := { name := "field_type", alias? := "fieldType" }

/-- The key of whether an answer is required. -/
def isRequiredKey : Field := { name := "is_required", alias? := "isRequired" }

/-- The declared keys of a field. -/
def schema : List Field := ["id", "question", fieldTypeKey, "options", isRequiredKey, "order"]

def ofMembers (m : Members) : Checked FormField :=
  FormField.mk
    <$> Field.optional "id" "" readText m
    <*> Field.optional "question" "" readText m
    <*> Field.optional fieldTypeKey "text" readText m
    <*> Field.optional "options" none (readOptional (readList readText)) m
    <*> Field.optional isRequiredKey false readTruth m
    <*> Field.optional "order" 0 readInteger m
    <*> pure (extraMembers schema m)

def read : Json → Checked FormField := readRecord ofMembers

/-- The choices of a field as a value. -/
def optionsValue (f : FormField) : Json :=
  match f.options with
  | none => .null
  | some texts => Json.ofTexts texts

/-- A field with its declared keys in camel case, the others being given. -/
def camelMembers (f : FormField) (extra : Members) : Json :=
  .obj (Table.setAll
    [("id", .str f.id), ("question", .str f.question), ("fieldType", .str f.fieldType),
      ("options", f.optionsValue), ("isRequired", .bool f.isRequired), ("order", .int f.order)]
    extra)

/-- A field as it is copied into the settings of a step. -/
def toStored (f : FormField) : Json := f.camelMembers f.extra

/-- A field as a value, with its declared keys in camel case. -/
def toCamelJson (f : FormField) : Json := f.camelMembers (Json.portableMembers f.extra)

/-- A field as a value, with its declared keys in snake case. -/
def toJson (f : FormField) : Json :=
  .obj (Table.setAll
    [("id", .str f.id), ("question", .str f.question), ("field_type", .str f.fieldType),
      ("options", f.optionsValue), ("is_required", .bool f.isRequired), ("order", .int f.order)]
    (Json.portableMembers f.extra))

end FormField

end CallFlow
