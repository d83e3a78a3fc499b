import CallFlow.Attempt
import CallFlow.Flow.Payload
import CallFlow.Form.Field

/-!
# Stored Forms

A step that collects a form may only name it by its id. Before such a step is compiled, the
name and the fields of the stored form are copied into its settings.

## Sections

1. Stored forms
2. Looking up
3. Enrichment
-/

namespace CallFlow

/-! ## §1 Stored forms -/

/-- A stored form. -/
structure FormRecord where
  id : String
  name : String
  fields : List FormField := []

namespace FormRecord

open Schema

def read : Json → Checked FormRecord := readRecord fun m =>
  FormRecord.mk
    <$> Field.required "id" readText m
    <*> Field.required "name" readText m
    <*> Field.optional "fields" [] (readList FormField.read) m

def toJson (r : FormRecord) : Json :=
  .obj [("id", .str r.id), ("name", .str r.name),
    ("fields", .arr (r.fields.map FormField.toJson))]

/-- A stored form as a value, with the keys of its fields in camel case. -/
def toCamelJson (r : FormRecord) : Json :=
  .obj [("id", .str r.id), ("name", .str r.name),
    ("fields", .arr (r.fields.map FormField.toCamelJson))]

end FormRecord

/-! ## §2 Looking up -/

/-- A place where forms are looked up by their id. Looking up may fail, for a reason. -/
abbrev FormLookup := String → Except String (Option FormRecord)

/-- Forms under their ids. -/
abbrev FormShelf := Table FormRecord

namespace FormShelf

/-- Puts a form on the shelf. -/
def add (shelf : FormShelf) (form : FormRecord) : FormShelf := Table.set shelf form.id form

/-- The shelf of a list of forms. -/
def ofForms (forms : List FormRecord) : FormShelf := forms.foldl add []

/-- Looking up on a shelf never fails. -/
def lookup (shelf : FormShelf) : FormLookup := fun id => .ok (Table.get? shelf id)

end FormShelf

/-! ## §3 Enrichment -/

namespace Step

/-- A step whose settings say what a stored form says. -/
def withForm (s : Step) (form : FormRecord) : Step :=
  let config := Table.set s.config "formName" (.str form.name)
  let config := Table.set config "fields" (.arr (form.fields.map FormField.toStored))
  { s with data := { s.data with config } }

/-- Copies a stored form into a step. Gives nothing if the step stays as it is: because it
collects no form, names none, or names one that cannot be found. -/
def enrich? (s : Step) (lookup : FormLookup) : Attempt (Option Step) :=
  let formId := s.setting "formId"
  if !s.category.isForm || !formId.isGiven then return none
  else
    match lookup formId.display with
    | .error reason => do
      Attempt.warn ("Failed to load form " ++ formId.display ++ " for node " ++ s.id ++ ": " ++
        reason)
      return none
    | .ok none => do
      Attempt.warn ("Form " ++ formId.display ++ " referenced by node " ++ s.id ++
        " was not found")
      return none
    | .ok (some form) => do
      Attempt.info ("Loaded form " ++ Text.quoted form.name ++ " with " ++
        toString form.fields.length ++ " fields for node " ++ s.id)
      return some (s.withForm form)

/-- Copies a stored form into a step, if there is one. -/
def enrich (s : Step) (lookup : FormLookup) : Attempt Step := do
  return (← s.enrich? lookup).getD s

end Step

/-- Copies stored forms into all steps of a flow. -/
def Flow.enrich (f : Flow) (lookup : FormLookup) : Attempt Flow := do
  return { f with steps := ← f.steps.mapM fun s => s.enrich lookup }

end CallFlow
