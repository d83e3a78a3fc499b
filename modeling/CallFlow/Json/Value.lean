import CallFlow.Decimal.Binary
import CallFlow.Table

/-!
# JSON Values

Authored flows carry free-form JSON in their settings. A value keeps what later steps can
tell apart: whole numbers of any size from numbers with a point, and the order of the members
of an object.

## Sections

1. Values
2. Given values
3. Members
4. Portable values
-/

namespace CallFlow

/-! ## §1 Values -/

/-- A JSON value. Objects keep the order of their members. -/
inductive Json where
  | null
  | bool (b : Bool)
  | int (i : Int)
  | float (x : Float)
  | str (s : String)
  | arr (items : List Json)
  | obj (members : List (String × Json))
  deriving Inhabited

/-- The members of an object, in order. -/
abbrev Members := Table Json

namespace Json

/-! ## §2 Given values -/

/-- A value counts as given unless it is null, false, zero or empty. -/
def isGiven : Json → Bool
  | null => false
  | bool b => b
  | int i => i ≠ 0
  | float x => !Decimal.isZero x
  | str s => !s.isEmpty
  | arr items => !items.isEmpty
  | obj members => !members.isEmpty

/-- Whether a value is null. -/
def isNull : Json → Bool
  | null => true
  | _ => false

/-- The first given value of a list. -/
def firstGiven? (values : List Json) : Option Json := values.find? isGiven

/-- What a list, a text or an object consists of: items, characters or names. -/
def items? : Json → Option (List Json)
  | arr items => some items
  | str s => some (s.toList.map fun c => str (String.singleton c))
  | obj members => some (members.map fun e => str e.1)
  | _ => none

/-! ## §3 Members -/

/-- The value of a member; null if there is none. -/
def member (members : Members) (name : String) : Json :=
  (Table.get? members name).getD null

/-- The first given value among some members. -/
def givenMember? (members : Members) (names : List String) : Option Json :=
  firstGiven? (names.map (member members))

/-- An optional text as a value. -/
def ofText? : Option String → Json
  | none => null
  | some s => str s

def ofTexts (texts : List String) : Json := arr (texts.map str)

/-! ## §4 Portable values -/

mutual

/-- Replaces the numbers that are not finite by null, as JSON proper has no form for them. -/
def portable : Json → Json
  | null => null
  | bool b => bool b
  | int i => int i
  | float x => if Decimal.isFinite x then float x else null
  | str s => str s
  | arr items => arr (portableItems items)
  | obj members => obj (portableMembers members)

/-- `portable` on every item. -/
def portableItems : List Json → List Json
  | [] => []
  | v :: rest => portable v :: portableItems rest

/-- `portable` on the value of every member. -/
def portableMembers : List (String × Json) → List (String × Json)
  | [] => []
  | (k, v) :: rest => (k, portable v) :: portableMembers rest

end

end Json

end CallFlow
