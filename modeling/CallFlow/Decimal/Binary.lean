/-!
# Double-Precision Numbers as Exact Fractions

A finite double is a sign, a mantissa `m` and an exponent `q`, and stands for `m · 2^q`.
`FloatView` takes a `Float` apart into these; `nearestBits` goes the other way and gives the
double nearest to a fraction, with ties to the even mantissa.

## Sections

1. Taking a double apart
2. The nearest double
3. Whole numbers
-/

namespace CallFlow.Decimal

/-! ## §1 Taking a double apart -/

/-- A double as what it stands for. A finite one is `mantissa · 2^exponent`, with a sign that
also tells the two zeros apart. -/
inductive FloatView where
  | nan
  | infinity (negative : Bool)
  | finite (negative : Bool) (mantissa : Nat) (exponent : Int)
  deriving DecidableEq, Repr

/-- The exponent of the smallest positive double, `2^(-1074)`. -/
def minExponent : Int := -1074

/-- The mantissa of a normal double lies between this and its double. -/
def hiddenBit : Nat := Nat.pow 2 52

/-- What the 64 bits of a double stand for. -/
def FloatView.ofBits (bits : UInt64) : FloatView :=
  let n := bits.toNat
  let negative := n / Nat.pow 2 63 = 1
  let field : Nat := n / Nat.pow 2 52 % Nat.pow 2 11
  let fraction := n % Nat.pow 2 52
  if field = 2047 then
    if fraction = 0 then .infinity negative else .nan
  else if field = 0 then .finite negative fraction minExponent
  else .finite negative (hiddenBit + fraction) (minExponent + ((field : Int) - 1))

/-- What a double stands for. -/
def view (x : Float) : FloatView := FloatView.ofBits x.toBits

/-- Whether a double is neither infinite nor undefined. -/
def isFinite (x : Float) : Bool :=
  match view x with
  | .finite .. => true
  | _ => false

/-- Whether a double is one of the two zeros. -/
def isZero (x : Float) : Bool :=
  match view x with
  | .finite _ 0 _ => true
  | _ => false

/-! ## §2 The nearest double -/

/-- `2^n` for `n ≥ 0`, and 1 otherwise. -/
def powTwo (n : Int) : Nat := Nat.pow 2 n.toNat

/-- The quotient rounded to the nearest whole number, a tie going to the even one. -/
def roundHalfEven (num den : Nat) : Nat :=
  let quotient := num / den
  let twice := 2 * (num % den)
  if twice > den || (twice = den && quotient % 2 = 1) then quotient + 1 else quotient

/-- The greatest `e` with `2^e ≤ num / den`, for a positive fraction. -/
def floorLogTwo (num den : Nat) : Int :=
  -- The two logarithms are rounded down, so their difference is right or one too large.
  let e : Int := num.log2 - den.log2
  if num * powTwo (-e) < den * powTwo e then e - 1 else e

/-- The pattern of positive infinity; patterns below it belong to finite doubles. -/
def infinityPattern : Nat := 2047 * Nat.pow 2 52

/-- The bits of the double nearest to a fraction that is not negative. A fraction beyond the
largest double by half its last place or more gives infinity.

The mantissa is rounded at exponent `q`; counting exponents from the smallest one, adding
`(q + 1074) · 2^52` to it is right for normal and subnormal doubles alike, and a mantissa
that rounds up to `2^53` carries into the exponent as it should. -/
def nearestPattern (num den : Nat) : Nat :=
  if num = 0 then 0
  else
    let q := max (floorLogTwo num den - 52) minExponent
    let mantissa := roundHalfEven (num * powTwo (-q)) (den * powTwo q)
    min ((q - minExponent).toNat * hiddenBit + mantissa) infinityPattern

/-- The double nearest to a fraction, with the given sign. -/
def nearest (negative : Bool) (num den : Nat) : Float :=
  let sign := if negative then Nat.pow 2 63 else 0
  Float.ofBits (UInt64.ofNat (sign + nearestPattern num den))

/-- Positive or negative infinity. -/
def infinite (negative : Bool) : Float :=
  Float.ofBits (UInt64.ofNat ((if negative then Nat.pow 2 63 else 0) + infinityPattern))

/-- The undefined number. -/
def undefinedNumber : Float := Float.ofBits 0x7FF8000000000000

/-- More decimal places than this, before or after the point, decide a number: it is beyond the
largest double, or nearer to zero than to the smallest one. -/
def decidedPlaces : Nat := 400

/-- The double nearest to `digits · 10^exponent`. -/
def ofDecimal (negative : Bool) (digits : Nat) (exponent : Int) : Float :=
  let places : Int := (Nat.toDigits 10 digits).length + exponent
  if digits = 0 || places < -decidedPlaces then nearest negative 0 1
  else if places > decidedPlaces then infinite negative
  else nearest negative (digits * Nat.pow 10 exponent.toNat) (Nat.pow 10 (-exponent).toNat)

/-- The double nearest to a whole number, unless the number is too large for one. -/
def ofInt? (i : Int) : Option Float :=
  if nearestPattern i.natAbs 1 < infinityPattern then some (nearest (i < 0) i.natAbs 1) else none

/-! ## §3 Whole numbers -/

/-- A finite double without what stands after its point. -/
def truncated (negative : Bool) (mantissa : Nat) (exponent : Int) : Int :=
  let magnitude := mantissa * powTwo exponent / powTwo (-exponent)
  if negative then -(magnitude : Int) else magnitude

/-- Whether nothing stands after the point of a finite double. -/
def isWhole (mantissa : Nat) (exponent : Int) : Bool :=
  mantissa % powTwo (-exponent) = 0

end CallFlow.Decimal
