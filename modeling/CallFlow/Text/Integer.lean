import CallFlow.Text.Blank
import CallFlow.Text.Digit

/-!
# Whole Numbers in Authored Text

Authors may write a whole number with blanks around it, with a sign, with decimal digits of
any script, and with single underscores between digits.
-/

namespace CallFlow.Text

/-- The values of digits that single underscores may part. -/
def groupedDigits? : List Char → Option (List Nat)
  | [] => none
  | [c] => (digitValue? c).map ([·])
  | c :: '_' :: rest => do some ((← digitValue? c) :: (← groupedDigits? rest))
  | c :: rest => do some ((← digitValue? c) :: (← groupedDigits? rest))

/-- Authored whole numbers have at most this many digits. -/
def maxAuthoredDigits : Nat := 4300

/-- The number of a list of digits, the first one counting most. -/
def ofDigits (digits : List Nat) : Nat := digits.foldl (fun n d => 10 * n + d) 0

/-- The size of a number without sign. -/
def magnitude? (cs : List Char) : Option Nat :=
  match groupedDigits? cs with
  | some digits => if digits.length ≤ maxAuthoredDigits then some (ofDigits digits) else none
  | none => none

/-- The whole number that an author has written. -/
def wholeNumber? (s : String) : Option Int :=
  match trimBlank s.toList with
  | '-' :: rest => (magnitude? rest).map fun n => -(n : Int)
  | '+' :: rest => (magnitude? rest).map Int.ofNat
  | cs => (magnitude? cs).map Int.ofNat

end CallFlow.Text
