/-!
# Blank Characters and Trimming

Two classes of blank characters decide what is trimmed from text:

- `isBlank`: the characters with the Unicode property `White_Space`;
- `isSpace`: those, and the four information separators U+001C to U+001F.

Authored text is trimmed by `strip`, which removes `isSpace` characters. Numbers written
as text are trimmed by `trimBlank`, which leaves the separators in place.
-/

namespace CallFlow.Text

/-! ## Classes -/

/-- The Unicode property `White_Space`. -/
def isBlank (c : Char) : Bool :=
  let n := c.toNat
  (0x09 ≤ n && n ≤ 0x0D) || n = 0x20 || n = 0x85 || n = 0xA0 || n = 0x1680 ||
  (0x2000 ≤ n && n ≤ 0x200A) || n = 0x2028 || n = 0x2029 || n = 0x202F || n = 0x205F ||
  n = 0x3000

/-- A blank character, or one of the information separators U+001C to U+001F. -/
def isSpace (c : Char) : Bool :=
  isBlank c || (0x1C ≤ c.toNat && c.toNat ≤ 0x1F)

/-! ## Trimming -/

/-- Removes the longest runs of characters in `p` at both ends. -/
def trimWhere (p : Char → Bool) (cs : List Char) : List Char :=
  ((cs.dropWhile p).reverse.dropWhile p).reverse

/-- Text without the spaces at its two ends. -/
def strip (s : String) : String :=
  String.ofList (trimWhere isSpace s.toList)

/-- A text of digits without the blank characters at its two ends. -/
def trimBlank (cs : List Char) : List Char :=
  trimWhere isBlank cs

end CallFlow.Text
