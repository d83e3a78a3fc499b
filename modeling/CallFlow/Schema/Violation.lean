/-!
# Violations and Checked Readings

Payloads are read against a schema. A reading either is accepted with a value or is rejected
with all the violations that were found, in the order of the fields. `Checked` combines
readings so that none of their violations is lost: it is an applicative functor and, on
purpose, no monad.
-/

namespace CallFlow.Schema

/-! ## Violations -/

/-- What a schema may find wrong with a value. -/
inductive ViolationKind where
  | missing
  | stringType
  | intType
  | intParsing
  | intParsingSize
  | intFromFloat
  | finiteNumber
  | floatType
  | floatParsing
  | boolType
  | boolParsing
  | listType
  | dictType
  | modelType
  | modelAttributesType
  | unionTagNotFound
  | unionTagInvalid
  | literalError
  | extraForbidden
  deriving DecidableEq, Repr

/-- The word for a kind of violation in reports. -/
def ViolationKind.code : ViolationKind → String
  | missing => "missing"
  | stringType => "string_type"
  | intType => "int_type"
  | intParsing => "int_parsing"
  | intParsingSize => "int_parsing_size"
  | intFromFloat => "int_from_float"
  | finiteNumber => "finite_number"
  | floatType => "float_type"
  | floatParsing => "float_parsing"
  | boolType => "bool_type"
  | boolParsing => "bool_parsing"
  | listType => "list_type"
  | dictType => "dict_type"
  | modelType => "model_type"
  | modelAttributesType => "model_attributes_type"
  | unionTagNotFound => "union_tag_not_found"
  | unionTagInvalid => "union_tag_invalid"
  | literalError => "literal_error"
  | extraForbidden => "extra_forbidden"

/-- A violation with the place in the payload where it was found. -/
structure Violation where
  path : List String
  kind : ViolationKind
  deriving DecidableEq, Repr

/-- A violation in one line. -/
def Violation.text (v : Violation) : String :=
  ".".intercalate v.path ++ ": " ++ v.kind.code

/-- Several violations in one line. -/
def violationsText (vs : List Violation) : String :=
  "; ".intercalate (vs.map Violation.text)

/-! ## Checked readings -/

/-- The outcome of reading a payload. -/
inductive Checked (α : Type) where
  | accepted (value : α)
  | rejected (violations : List Violation)
  deriving DecidableEq, Repr

namespace Checked

variable {α β : Type}

/-- A reading that is rejected for one reason at the place itself. -/
def refuse (kind : ViolationKind) : Checked α := rejected [⟨[], kind⟩]

/-- Changes the value of an accepted reading. -/
def map (f : α → β) : Checked α → Checked β
  | accepted a => accepted (f a)
  | rejected vs => rejected vs

/-- Applies one reading to another and keeps the violations of both. -/
def ap : Checked (α → β) → Checked α → Checked β
  | accepted f, accepted a => accepted (f a)
  | accepted _, rejected vs => rejected vs
  | rejected vs, accepted _ => rejected vs
  | rejected vs, rejected ws => rejected (vs ++ ws)

instance : Applicative Checked where
  pure := accepted
  map := map
  seq f x := ap f (x ())

/-- The first reading, if both are accepted. -/
def andThen (a : Checked α) (b : Checked Unit) : Checked α :=
  ap (map (fun x _ => x) a) b

/-- Places a reading under a part of the payload. -/
def under (part : String) : Checked α → Checked α
  | accepted a => accepted a
  | rejected vs => rejected (vs.map fun v => { v with path := part :: v.path })

/-- Reads all elements of a list. -/
def all (read : β → Checked α) : List β → Checked (List α)
  | [] => accepted []
  | x :: rest => ap (map List.cons (read x)) (all read rest)

/-- The value of an accepted reading. -/
def toOption : Checked α → Option α
  | accepted a => some a
  | rejected _ => none

end Checked

end CallFlow.Schema
