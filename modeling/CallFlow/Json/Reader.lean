import CallFlow.Json.Number

/-!
# Reading JSON

A document is read one character at a time. The reader keeps the word or text that it is
inside of, the containers that are open, and what may come next; so a document of any length
and depth is read by one pass over its characters, and reading always ends.

Besides JSON proper, the words `NaN`, `Infinity` and `-Infinity` are numbers. A member that
occurs twice keeps its first place and its last value.

## Sections

1. Faults
2. Words and texts
3. Containers
4. Characters
-/

namespace CallFlow.Json

/-! ## §1 Faults -/

/-- Why a text is no document. -/
inductive ReadFault where
  /-- The text does not follow the grammar. -/
  | malformed
  /-- A whole number has more digits than are read. -/
  | tooManyDigits (count : Nat)
  deriving DecidableEq, Repr

/-- Whole numbers are read up to this many digits. -/
def maxIntegerDigits : Nat := 4300

/-! ## §2 Words and texts -/

/-- How many digits a whole number has; zero for a word that is none. -/
def integerDigits (cs : List Char) : Nat :=
  let digits := (splitMinus cs).2
  if digits.all (Text.asciiDigit? · |>.isSome) && !hasSpareZero digits then digits.length else 0

/-- The value of a word. -/
def readWord (cs : List Char) : Except ReadFault Json :=
  let count := integerDigits cs
  if maxIntegerDigits < count then .error (.tooManyDigits count)
  else match String.ofList cs with
    | "null" => .ok null
    | "true" => .ok (bool true)
    | "false" => .ok (bool false)
    | "NaN" => .ok (float Decimal.undefinedNumber)
    | "Infinity" => .ok (float (Decimal.infinite false))
    | "-Infinity" => .ok (float (Decimal.infinite true))
    | _ => match number? cs with
      | some v => .ok v
      | none => .error .malformed

/-- Whether a code is the first of a surrogate pair. -/
def isHighSurrogate (n : Nat) : Bool := 0xD800 ≤ n && n < 0xDC00

/-- Whether a code is the second of a surrogate pair. -/
def isLowSurrogate (n : Nat) : Bool := 0xDC00 ≤ n && n < 0xE000

/-- The characters of a list of codes. Two surrogates make one character; one that is alone
stands for no character and becomes U+FFFD. -/
def joinSurrogates : List Nat → List Char
  | [] => []
  | high :: low :: rest =>
    if isHighSurrogate high && isLowSurrogate low then
      Char.ofNat (0x10000 + (high - 0xD800) * 0x400 + (low - 0xDC00)) :: joinSurrogates rest
    else if isHighSurrogate high || isLowSurrogate high then
      Char.ofNat 0xFFFD :: joinSurrogates (low :: rest)
    else Char.ofNat high :: joinSurrogates (low :: rest)
  | [n] => [if isHighSurrogate n || isLowSurrogate n then Char.ofNat 0xFFFD else Char.ofNat n]

/-- The value of a hexadecimal digit. -/
def hexValue? (c : Char) : Option Nat :=
  if '0' ≤ c && c ≤ '9' then some (c.toNat - 48)
  else if 'a' ≤ c && c ≤ 'f' then some (c.toNat - 87)
  else if 'A' ≤ c && c ≤ 'F' then some (c.toNat - 55)
  else none

/-- The code that a character stands for after a backslash. -/
def simpleEscape? : Char → Option Nat
  | '"' => some 34
  | '\\' => some 92
  | '/' => some 47
  | 'b' => some 8
  | 'f' => some 12
  | 'n' => some 10
  | 'r' => some 13
  | 't' => some 9
  | _ => none

/-! ## §3 Containers -/

/-- A container that is still open: a list with its items so far, last one first, or an object
with its members so far and the name of the member that is being read. -/
inductive Frame where
  | arr (items : List Json)
  | obj (members : List (String × Json)) (name : String)

/-- What may come next. -/
inductive Expected where
  /-- A value. -/
  | value
  /-- The first item of a list, or its end. -/
  | firstItem
  /-- The name of the first member of an object, or its end. -/
  | firstName
  /-- The name of a further member. -/
  | name
  /-- The colon after a name. -/
  | colon
  /-- A comma or the end of a container; at the outermost level, nothing. -/
  | delimiter
  deriving DecidableEq

/-- A document in the middle of being read. -/
structure Progress where
  frames : List Frame
  expected : Expected
  /-- The outermost value, once it is complete. -/
  result : Option Json

/-- Where reading starts. -/
def Progress.start : Progress := ⟨[], .value, none⟩

/-- Puts a complete value where it belongs. -/
def Progress.put (p : Progress) (v : Json) : Progress :=
  match p.frames with
  | [] => ⟨[], .delimiter, some v⟩
  | .arr items :: rest => ⟨.arr (v :: items) :: rest, .delimiter, p.result⟩
  | .obj members name :: rest =>
    ⟨.obj (Table.set members name v) name :: rest, .delimiter, p.result⟩

/-- Whether a value may come next. -/
def Progress.takesValue (p : Progress) : Bool :=
  p.expected = .value || p.expected = .firstItem

/-- Takes a word. -/
def Progress.word (p : Progress) (cs : List Char) : Except ReadFault Progress :=
  if p.takesValue then (readWord cs).map p.put else .error .malformed

/-- Takes a text: a value, or the name of a member. -/
def Progress.text (p : Progress) (s : String) : Except ReadFault Progress :=
  if p.takesValue then .ok (p.put (str s))
  else if p.expected = .firstName || p.expected = .name then
    match p.frames with
    | .obj members _ :: rest => .ok ⟨.obj members s :: rest, .colon, p.result⟩
    | _ => .error .malformed
  else .error .malformed

/-- Takes one of the characters `[ ] , :` or a brace. -/
def Progress.mark (p : Progress) (c : Char) : Except ReadFault Progress :=
  match c, p.frames with
  | '[', frames =>
    if p.takesValue then .ok ⟨.arr [] :: frames, .firstItem, p.result⟩ else .error .malformed
  | '\x7b', frames =>
    if p.takesValue then .ok ⟨.obj [] "" :: frames, .firstName, p.result⟩
    else .error .malformed
  | ']', .arr items :: rest =>
    if p.expected = .firstItem || p.expected = .delimiter then
      .ok (Progress.put ⟨rest, .value, p.result⟩ (arr items.reverse))
    else .error .malformed
  | '\x7d', .obj members _ :: rest =>
    if p.expected = .firstName || p.expected = .delimiter then
      .ok (Progress.put ⟨rest, .value, p.result⟩ (obj members))
    else .error .malformed
  | ',', .arr _ :: _ =>
    if p.expected = .delimiter then .ok { p with expected := .value } else .error .malformed
  | ',', .obj .. :: _ =>
    if p.expected = .delimiter then .ok { p with expected := .name } else .error .malformed
  | ':', _ =>
    if p.expected = .colon then .ok { p with expected := .value } else .error .malformed
  | _, _ => .error .malformed

/-! ## §4 Characters -/

/-- What the next character belongs to. -/
inductive Inside where
  /-- To nothing that has begun. -/
  | between
  /-- To a word with these characters so far, last one first. -/
  | word (read : List Char)
  /-- To a text with these codes so far, last one first. -/
  | text (read : List Nat)
  /-- To an escape in a text. -/
  | escape (read : List Nat)
  /-- To an escape by code, of which `left` digits are missing. -/
  | code (read : List Nat) (left value : Nat)

/-- The characters that stand for themselves between values. -/
def isMark (c : Char) : Bool :=
  c = '[' || c = ']' || c = '\x7b' || c = '\x7d' || c = ',' || c = ':'

/-- The four characters that may stand between the parts of a document. -/
def isLayout (c : Char) : Bool :=
  c = ' ' || c = '\t' || c = '\n' || c = '\r'

/-- Takes a character that does not belong to a word or text. -/
def stepBetween (p : Progress) (c : Char) : Except ReadFault (Inside × Progress) :=
  if isLayout c then .ok (.between, p)
  else if c = '"' then .ok (.text [], p)
  else if isMark c then (p.mark c).map (.between, ·)
  else .ok (.word [c], p)

/-- Takes one character. -/
def step : Inside × Progress → Char → Except ReadFault (Inside × Progress)
  | (.between, p), c => stepBetween p c
  | (.word read, p), c =>
    -- A word has no end of its own; the next character that cannot belong to it ends it.
    if isLayout c || isMark c || c = '"' then
      (p.word read.reverse).bind fun p => stepBetween p c
    else .ok (.word (c :: read), p)
  | (.text read, p), c =>
    if c = '"' then
      (p.text (String.ofList (joinSurrogates read.reverse))).map (.between, ·)
    else if c = '\\' then .ok (.escape read, p)
    else if c.toNat < 0x20 then .error .malformed
    else .ok (.text (c.toNat :: read), p)
  | (.escape read, p), c =>
    if c = 'u' then .ok (.code read 4 0, p)
    else match simpleEscape? c with
      | some n => .ok (.text (n :: read), p)
      | none => .error .malformed
  | (.code read left value, p), c =>
    match hexValue? c with
    | none => .error .malformed
    | some d =>
      let value := 16 * value + d
      if left ≤ 1 then .ok (.text (value :: read), p)
      else .ok (.code read (left - 1) value, p)

/-- The value of a document that has been read to its end. -/
def finish : Inside × Progress → Except ReadFault Json
  | (.between, p) =>
    match p.frames, p.result with
    | [], some v => .ok v
    | _, _ => .error .malformed
  | (.word read, p) => do
    let p ← p.word read.reverse
    match p.frames, p.result with
    | [], some v => .ok v
    | _, _ => .error .malformed
  | _ => .error .malformed

/-- The value of a document. -/
def parse (document : String) : Except ReadFault Json :=
  (document.toList.foldlM step (.between, Progress.start)).bind finish

end CallFlow.Json
