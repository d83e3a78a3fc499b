import CallFlow.Decimal.Shortest
import CallFlow.Json.Value
import CallFlow.Text.Quoted

/-!
# JSON Values in Running Text

Prompts, labels and journal lines show free-form values as text. A text stands for itself; the
other values are shown by `quoted`, which also writes the parts of lists and objects, with
texts between quotes.
-/

namespace CallFlow.Json

/-- Numbers in running text: plain from 0.0001 up to 16 digits before the point. -/
def numberStyle : Decimal.NumberStyle where
  maxPoint := 16
  minPoint := -3
  exponentWidth := 2
  infinityText := "inf"
  negativeInfinityText := "-inf"
  undefinedText := "nan"

mutual

/-- A value as a part of a longer text, with texts between quotes. -/
def quoted : Json → String
  | null => "None"
  | bool b => if b then "True" else "False"
  | int i => toString i
  | float x => Decimal.floatText numberStyle x
  | str s => Text.quoted s
  | arr items => "[" ++ ", ".intercalate (quotedItems items) ++ "]"
  | obj members => "\x7b" ++ ", ".intercalate (quotedMembers members) ++ "\x7d"

/-- The items of a list as parts of a longer text. -/
def quotedItems : List Json → List String
  | [] => []
  | v :: rest => quoted v :: quotedItems rest

/-- The members of an object as parts of a longer text. -/
def quotedMembers : List (String × Json) → List String
  | [] => []
  | (k, v) :: rest => (Text.quoted k ++ ": " ++ quoted v) :: quotedMembers rest

end

/-- The text of a value: a text itself, without quotes, and any other value as `quoted`. -/
def display : Json → String
  | str s => s
  | v => quoted v

/-- The text of the first given value, or else the default. -/
def displayFirst (values : List Json) (default : String) : String :=
  ((firstGiven? values).map display).getD default

end CallFlow.Json
