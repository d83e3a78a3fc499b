import CallFlow.Json.Display

/-!
# Writing JSON

Documents are written in ASCII: every other character is escaped by its UTF-16 units. A
document stands either on one line or with one item per line, indented by its depth.

Numbers are written as in running text, except that the three that are not finite have the
names `Infinity`, `-Infinity` and `NaN`.
-/

namespace CallFlow.Json

/-! ## §1 Scalars -/

/-- Numbers in documents. -/
def documentNumberStyle : Decimal.NumberStyle :=
  { numberStyle with
    infinityText := "Infinity"
    negativeInfinityText := "-Infinity"
    undefinedText := "NaN" }

/-- The escape of one UTF-16 unit. -/
def unitEscape (n : Nat) : List Char := '\\' :: 'u' :: Text.hexDigits 4 n

/-- A character inside a written text. -/
def escapeChar (c : Char) : List Char :=
  if c = '"' || c = '\\' then ['\\', c]
  else if c = '\n' then ['\\', 'n']
  else if c = '\r' then ['\\', 'r']
  else if c = '\t' then ['\\', 't']
  else if c.toNat = 8 then ['\\', 'b']
  else if c.toNat = 12 then ['\\', 'f']
  else
    let n := c.toNat
    if 0x20 ≤ n && n < 0x7F then [c]
    else if n < 0x10000 then unitEscape n
    else unitEscape (0xD800 + (n - 0x10000) / 0x400) ++
      unitEscape (0xDC00 + (n - 0x10000) % 0x400)

/-- A text in double quotes. -/
def writeText (s : String) : String :=
  String.ofList ('"' :: (s.toList.flatMap escapeChar ++ ['"']))

/-- A null, truth value, number or text. -/
def writeScalar : Json → String
  | bool b => if b then "true" else "false"
  | int i => toString i
  | float x => Decimal.floatText documentNumberStyle x
  | str s => writeText s
  | _ => "null"

/-! ## §2 Documents -/

/-- How the parts of a list or an object are laid out. -/
inductive Layout where
  /-- All on one line. -/
  | line
  /-- Each item on a line of its own, each level indented by `step` spaces more. -/
  | block (step : Nat)
  deriving DecidableEq

/-- What stands before an item at the given depth. -/
def Layout.newline : Layout → Nat → String
  | .line, _ => ""
  | .block step, depth => "\n" ++ String.ofList (List.replicate (step * depth) ' ')

/-- What separates two items. -/
def Layout.separator : Layout → Nat → String
  | .line, _ => ", "
  | .block step, depth => "," ++ (Layout.block step).newline depth

/-- Items between brackets, laid out. -/
def Layout.enclose (layout : Layout) (depth : Nat) (left right : String)
    (items : List String) : String :=
  if items.isEmpty then left ++ right
  else left ++ layout.newline (depth + 1) ++
    (layout.separator (depth + 1)).intercalate items ++ layout.newline depth ++ right

mutual

/-- A value written at the given depth. -/
def write (layout : Layout) (depth : Nat) : Json → String
  | arr items => layout.enclose depth "[" "]" (writeItems layout (depth + 1) items)
  | obj members =>
    layout.enclose depth "\x7b" "\x7d" (writeMembers layout (depth + 1) members)
  | v => writeScalar v

/-- The items of a list written at the given depth. -/
def writeItems (layout : Layout) (depth : Nat) : List Json → List String
  | [] => []
  | v :: rest => write layout depth v :: writeItems layout depth rest

/-- The members of an object written at the given depth. -/
def writeMembers (layout : Layout) (depth : Nat) : List (String × Json) → List String
  | [] => []
  | (k, v) :: rest =>
    (writeText k ++ ": " ++ write layout depth v) :: writeMembers layout depth rest

end

/-- A document with the given layout. -/
def render (layout : Layout) (v : Json) : String := write layout 0 v

/-! ## §3 Members in order of their names -/

mutual

/-- Sorts the members of all objects by their names. -/
def sortMembers : Json → Json
  | arr items => arr (sortMembersItems items)
  | obj members =>
    obj ((sortMembersMembers members).mergeSort fun a b => a.1 ≤ b.1)
  | v => v

/-- `sortMembers` on every item. -/
def sortMembersItems : List Json → List Json
  | [] => []
  | v :: rest => sortMembers v :: sortMembersItems rest

/-- `sortMembers` on the value of every member. -/
def sortMembersMembers : List (String × Json) → List (String × Json)
  | [] => []
  | (k, v) :: rest => (k, sortMembers v) :: sortMembersMembers rest

end

end CallFlow.Json
