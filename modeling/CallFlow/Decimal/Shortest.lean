import CallFlow.Decimal.Binary

/-!
# The Shortest Decimal that Reads Back

Of the decimals that lie nearer to a double than to any other, the shortest is written, and of
those with equally many digits the one nearest to the double.

The decimals with `n` digits lie on a grid of a power of ten. If a point of the grid lies in
the interval of reals that round to the double, then so does one of the two grid points next
to the double, so it suffices to try these for `n = 1, …, 17`.

## Sections

1. The interval of a double
2. The shortest digits
3. Writing them down
-/

namespace CallFlow.Decimal

/-! ## §1 The interval of a double -/

/-- A positive double `num / den` with the two ends `low / den` and `high / den` of the
interval that rounds to it; the ends belong to it when `closed`. -/
structure Interval where
  num : Nat
  den : Nat
  low : Nat
  high : Nat
  closed : Bool

/-- The interval of a double with mantissa `m` and exponent `q`. Below a power of two the
neighbour is only half as far away. -/
def intervalOf (m : Nat) (q : Int) : Interval :=
  let unit := powTwo q
  let below := if m = hiddenBit && q > minExponent then 1 else 2
  { num := 4 * m * unit
    den := 4 * powTwo (-q)
    low := (4 * m - below) * unit
    high := (4 * m + 2) * unit
    closed := m % 2 = 0 }

/-- Whether `c · 10^j` lies in the interval. -/
def Interval.contains (r : Interval) (c : Nat) (j : Int) : Bool :=
  let point := c * Nat.pow 10 j.toNat * r.den
  let low := r.low * Nat.pow 10 (-j).toNat
  let high := r.high * Nat.pow 10 (-j).toNat
  if r.closed then low ≤ point && point ≤ high else low < point && point < high

/-! ## §2 The shortest digits -/

/-- Decimal digits `digits` and the place of the point, such that the number is
`0.digits · 10^point`. -/
structure Digits where
  digits : List Char
  point : Int
  deriving DecidableEq, Repr

/-- The greatest `k` with `10^k ≤ num / den`, for a positive fraction. -/
def floorLogTen (num den : Nat) : Int :=
  if den ≤ num then (Nat.toDigits 10 (num / den)).length - 1
  else -((Nat.toDigits 10 ((den + num - 1) / num - 1)).length : Int)

/-- The point nearest to the number on the grid of `10^j`, if it lies in the interval. Of the
two neighbours the nearer one is taken, and the even one if they are equally near. -/
def Interval.gridPoint? (r : Interval) (j : Int) : Option Nat :=
  let num := r.num * Nat.pow 10 (-j).toNat
  let den := r.den * Nat.pow 10 j.toNat
  let near := roundHalfEven num den
  let floor := num / den
  let far := if near = floor then floor + 1 else floor
  -- The far neighbour matters only where the interval is not symmetric, at powers of two.
  if r.contains near j then some near
  else if r.contains far j then some far
  else none

/-- Drops the zeros at the end of a list of digits. -/
def dropTrailingZeros (ds : List Char) : List Char :=
  (ds.reverse.dropWhile (· = '0')).reverse

/-- Digits of `c · 10^j`. -/
def Digits.ofNat (c : Nat) (j : Int) : Digits :=
  let ds := Nat.toDigits 10 c
  { digits := dropTrailingZeros ds, point := ds.length + j }

/-- Seventeen digits tell any two doubles apart. -/
def maxDigits : Nat := 17

/-- The shortest digits of a positive double. -/
def shortest (m : Nat) (q : Int) : Digits :=
  let r := intervalOf m q
  let k := floorLogTen r.num r.den
  let grids := (List.range maxDigits).map fun (n : Nat) => k - (n : Int)
  match grids.findSome? fun j => (r.gridPoint? j).map (Digits.ofNat · j) with
  | some d => d
  | none => Digits.ofNat m q

/-! ## §3 Writing them down -/

/-- How a number with a point is written. -/
structure NumberStyle where
  /-- Greatest place of the point that is still written without an exponent. -/
  maxPoint : Int
  /-- Least place of the point that is still written without an exponent. -/
  minPoint : Int
  /-- How many digits an exponent has at least. -/
  exponentWidth : Nat
  /-- The words for positive infinity, negative infinity and the undefined number. -/
  infinityText : String
  negativeInfinityText : String
  undefinedText : String

/-- `n` zeros. -/
def zeros (n : Nat) : List Char := List.replicate n '0'

/-- An exponent with its sign. -/
def exponentText (style : NumberStyle) (e : Int) : List Char :=
  let ds := Nat.toDigits 10 e.natAbs
  'e' :: (if e < 0 then '-' else '+') :: (zeros (style.exponentWidth - ds.length) ++ ds)

/-- Digits written with a point, or with an exponent where the point is too far away. -/
def Digits.render (style : NumberStyle) (d : Digits) : List Char :=
  if d.point < style.minPoint || style.maxPoint < d.point then
    let tail := d.digits.drop 1
    d.digits.take 1 ++ (if tail.isEmpty then [] else '.' :: tail) ++
      exponentText style (d.point - 1)
  else if d.point ≤ 0 then
    ['0', '.'] ++ zeros (-d.point).toNat ++ d.digits
  else
    let whole := d.point.toNat
    let tail := d.digits.drop whole
    d.digits.take whole ++ zeros (whole - d.digits.length) ++ '.' ::
      (if tail.isEmpty then ['0'] else tail)

/-- The text of a double. -/
def floatText (style : NumberStyle) (x : Float) : String :=
  match view x with
  | .nan => style.undefinedText
  | .infinity negative => if negative then style.negativeInfinityText else style.infinityText
  | .finite negative m q =>
    let body := if m = 0 then ['0', '.', '0'] else (shortest m q).render style
    String.ofList (if negative then '-' :: body else body)

end CallFlow.Decimal
