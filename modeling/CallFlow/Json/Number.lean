import CallFlow.Json.Value
import CallFlow.Text.Digit

/-!
# Numbers in Documents

A number of a document is `-?(0|[1-9][0-9]*)(\.[0-9]+)?([eE][+-]?[0-9]+)?`. Without point and
exponent it is a whole number, otherwise the nearest double.
-/

namespace CallFlow.Json

/-- The number that a list of digits writes, `none` if one of them is no digit. -/
def digitsValue? : List Char → Nat → Option Nat
  | [], acc => some acc
  | c :: rest, acc => (Text.asciiDigit? c).bind fun d => digitsValue? rest (10 * acc + d)

/-- The number written by a list of one or more digits. -/
def natural? (cs : List Char) : Option Nat :=
  if cs.isEmpty then none else digitsValue? cs 0

/-- Takes a minus sign off. -/
def splitMinus : List Char → Bool × List Char
  | '-' :: rest => (true, rest)
  | cs => (false, cs)

/-- The value of an exponent: digits, perhaps after a sign. -/
def exponent? : List Char → Option Int
  | '-' :: rest => (natural? rest).map fun n => -(n : Int)
  | '+' :: rest => (natural? rest).map Int.ofNat
  | cs => (natural? cs).map Int.ofNat

/-- The parts of a number: its sign, the digits before and after the point, the exponent. -/
structure NumberParts where
  negative : Bool
  whole : List Char
  fraction : Option (List Char)
  exponent : Option (List Char)

/-- Cuts a number at its point and at the letter of its exponent. -/
def NumberParts.split (cs : List Char) : NumberParts :=
  let (negative, body) := splitMinus cs
  let isE := fun c => c = 'e' || c = 'E'
  let mantissa := body.takeWhile (!isE ·)
  let exponent := body.dropWhile (!isE ·)
  let whole := mantissa.takeWhile (· ≠ '.')
  let fraction := mantissa.dropWhile (· ≠ '.')
  { negative, whole
    fraction := if fraction.isEmpty then none else some (fraction.drop 1)
    exponent := if exponent.isEmpty then none else some (exponent.drop 1) }

/-- Whole parts have no zero in front of another digit. -/
def hasSpareZero : List Char → Bool
  | '0' :: _ :: _ => true
  | _ => false

/-- Gives the nearest double to a number with point or exponent. -/
def NumberParts.toFloat? (p : NumberParts) : Option Float := do
  let fraction := p.fraction.getD ['0']
  let _ ← natural? p.whole
  let _ ← natural? fraction
  let e ← exponent? (p.exponent.getD ['0'])
  let digits ← natural? (p.whole ++ fraction)
  some (Decimal.ofDecimal p.negative digits (e - fraction.length))

/-- The number that a word of a document writes. -/
def number? (cs : List Char) : Option Json :=
  let p := NumberParts.split cs
  if hasSpareZero p.whole then none
  else if p.fraction.isNone && p.exponent.isNone then
    (natural? p.whole).map fun n => int (if p.negative then -n else n)
  else p.toFloat?.map float

end CallFlow.Json
