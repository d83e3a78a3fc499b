import CallFlow.Json.Number
import CallFlow.Schema.Violation
import CallFlow.Text.Blank
import CallFlow.Text.Case

/-!
# Reading Scalars

Texts must be texts. Whole numbers, numbers and truth values are also read from each other
and from text, where nothing is lost by it.

## Sections

1. Texts
2. Whole numbers
3. Numbers
4. Truth values
-/

namespace CallFlow.Schema

/-! ## §1 Texts -/

def readText : Json → Checked String
  | .str s => .accepted s
  | _ => .refuse .stringType

/-- Reads a value unless it is null. -/
def readOptional {α : Type} (read : Json → Checked α) : Json → Checked (Option α)
  | .null => .accepted none
  | v => (read v).map some

/-! ## §2 Whole numbers -/

/-- What a text says as a whole number. -/
inductive IntegerText where
  | value (i : Int)
  | tooLong
  | malformed

/-- Whole numbers written as text have at most this many digits. -/
def maxTextDigits : Nat := 4300

/-- Reads `-?(0|[1-9][0-9]*)`. The digits are counted before anything behind them is looked at,
so a number that is too long is reported as such even if it is not well-formed. -/
def canonicalInteger (cs : List Char) : IntegerText :=
  let (negative, body) := Json.splitMinus cs
  let digits := body.takeWhile fun c => (Text.asciiDigit? c).isSome
  if Json.hasSpareZero digits then .malformed
  else if maxTextDigits < digits.length then .tooLong
  else match Json.natural? body with
    | some n => .value (if negative then -n else n)
    | none => .malformed

/-- Takes leading zeros off, and the underscores between them, but leaves one zero where no
other digit follows. Behind the zeros there may still be a minus sign, which counts. Text that
does not begin with a digit is no number. -/
def dropLeadingZeros (cs : List Char) : Option (List Char) :=
  match cs with
  | '0' :: rest =>
    let isSkipped := fun c => c = '0' || c = '_'
    let skipped := '0' :: rest.takeWhile isSkipped
    match rest.dropWhile isSkipped with
    -- What was skipped last stays, so that an underscore at the end is still refused.
    | [] => skipped.getLast?.map ([·])
    | '.' :: tail => skipped.getLast?.map (· :: '.' :: tail)
    | c :: tail => if ('1' ≤ c && c ≤ '9') || c = '-' then some (c :: tail) else none
  | c :: _ => if '1' ≤ c && c ≤ '9' then some cs else none
  | [] => none

/-- Takes the leading zeros of a number off, which stand behind its minus sign. -/
def dropSignedZeros : List Char → Option (List Char)
  | '-' :: rest => (dropLeadingZeros rest).map ('-' :: ·)
  | cs => dropLeadingZeros cs

/-- Takes off a point that only zeros follow, at least one. -/
def dropZeroFraction (cs : List Char) : List Char :=
  match cs.dropWhile (· ≠ '.') with
  | '.' :: '0' :: rest => if rest.all (· = '0') then cs.takeWhile (· ≠ '.') else cs
  | _ => cs

/-- Whether two underscores stand side by side. -/
def hasDoubleUnderscore : List Char → Bool
  | '_' :: '_' :: _ => true
  | _ :: rest => hasDoubleUnderscore rest
  | [] => false

/-- Takes off underscores that stand singly between other characters. -/
def dropUnderscores (cs : List Char) : Option (List Char) :=
  if cs.head? = some '_' || cs.getLast? = some '_' || hasDoubleUnderscore cs then none
  else some (cs.filter (· ≠ '_'))

/-- Takes off one plus sign, which no minus sign may follow. -/
def dropPlus : List Char → Option (List Char)
  | '+' :: '-' :: _ => none
  | '+' :: rest => some rest
  | cs => some cs

/-- Brings the text of a whole number into its canonical form. -/
def cleanInteger (cs : List Char) : Option (List Char) := do
  let cs ← dropPlus (Text.trimBlank cs)
  let cs := dropZeroFraction (← dropSignedZeros cs)
  some ((dropUnderscores cs).getD cs)

/-- What a text says as a whole number. Only a text that is canonical from the start can be too
long; one that has to be cleaned is malformed then. -/
def integerText (cs : List Char) : IntegerText :=
  match canonicalInteger cs with
  | .malformed =>
    match (cleanInteger cs).map canonicalInteger with
    | some (.value i) => .value i
    | _ => .malformed
  | read => read

/-- Numbers with a point are read as whole numbers strictly between this and its negative. -/
def wholeBound : Int := Int.pow 2 63

/-- Reads a number with a point as a whole number. -/
def readWhole (x : Float) : Checked Int :=
  match Decimal.view x with
  | .finite negative m q =>
    if !Decimal.isWhole m q then .refuse .intFromFloat
    else
      let i := Decimal.truncated negative m q
      if -wholeBound < i && i < wholeBound then .accepted i else .refuse .intParsingSize
  | _ => .refuse .finiteNumber

def readInteger : Json → Checked Int
  | .int i => .accepted i
  | .bool b => .accepted (if b then 1 else 0)
  | .float x => readWhole x
  | .str s =>
    match integerText s.toList with
    | .value i => .accepted i
    | .tooLong => .refuse .intParsingSize
    | .malformed => .refuse .intParsing
  | _ => .refuse .intType

/-! ## §3 Numbers -/

/-- Takes a sign off. -/
def splitSign : List Char → Bool × List Char
  | '-' :: rest => (true, rest)
  | '+' :: rest => (false, rest)
  | cs => (false, cs)

/-- The number that digits with a point or exponent write; digits may be missing before or
after the point, but not on both sides. The sign is given apart. -/
def decimalText? (negative : Bool) (cs : List Char) : Option Float := do
  let p := Json.NumberParts.split cs
  let fraction := p.fraction.getD []
  let digits ← Json.natural? (p.whole ++ fraction)
  let e ← Json.exponent? (p.exponent.getD ['0'])
  if p.negative then none
  else some (Decimal.ofDecimal negative digits (e - fraction.length))

/-- The number that a text writes. -/
def numberText? (cs : List Char) : Option Float :=
  let (negative, body) := splitSign cs
  match Text.lowerAscii (String.ofList body) with
  | "inf" | "infinity" => some (Decimal.infinite negative)
  | "nan" => some Decimal.undefinedNumber
  | _ => decimalText? negative body

def readNumber : Json → Checked Float
  | .float x => .accepted x
  | .int i =>
    match Decimal.ofInt? i with
    | some x => .accepted x
    | none => .refuse .floatType
  | .bool b => .accepted (if b then 1 else 0)
  | .str s =>
    match numberText? (Text.trimBlank s.toList) with
    | some x => .accepted x
    | none =>
      match (dropUnderscores s.toList).bind numberText? with
      | some x => .accepted x
      | none => .refuse .floatParsing
  | _ => .refuse .floatType

/-! ## §4 Truth values -/

/-- The words for true, in lower case. -/
def yesWords : List String := ["1", "t", "y", "on", "yes", "true"]

/-- The words for false, in lower case. -/
def noWords : List String := ["0", "f", "n", "no", "off", "false"]

/-- Reads zero and one as truth values. -/
def readBit (i : Int) : Checked Bool :=
  if i = 0 then .accepted false else if i = 1 then .accepted true else .refuse .boolParsing

/-- Reads a truth value. -/
def readTruth : Json → Checked Bool
  | .bool b => .accepted b
  | .int i => if -wholeBound ≤ i && i < wholeBound then readBit i else .refuse .boolType
  | .float x =>
    match readWhole x with
    | .accepted i => readBit i
    | .rejected _ => .refuse .boolType
  | .str s =>
    let word := Text.lowerAscii s
    if yesWords.contains word then .accepted true
    else if noWords.contains word then .accepted false
    else .refuse .boolParsing
  | _ => .refuse .boolType

end CallFlow.Schema
