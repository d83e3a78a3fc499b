/-!
# Cutting Text by Characters

Labels, quoted lines and identifiers are cut to a number of characters, counted as Unicode
code points. `preview` marks a cut with three dots.
-/

namespace CallFlow.Text

/-- The first `n` characters. -/
def takeFirst (n : Nat) (s : String) : String :=
  String.ofList (s.toList.take n)

/-- The last `n` characters; the whole text if it has no more than `n`. -/
def takeLast (n : Nat) (s : String) : String :=
  String.ofList (s.toList.drop (s.toList.length - n))

/-- Text without its last character. -/
def dropLast (s : String) : String :=
  String.ofList s.toList.dropLast

/-- How many characters of a line are shown in the journal. -/
def previewLength : Nat := 50

/-- The text itself if it is short, else its beginning and three dots. -/
def preview (s : String) : String :=
  if s.toList.length ≤ previewLength then s else takeFirst previewLength s ++ "..."

/-- Text without its single and double quotes. -/
def removeQuotes (s : String) : String :=
  String.ofList (s.toList.filter fun c => c != '\'' && c != '"')

end CallFlow.Text
