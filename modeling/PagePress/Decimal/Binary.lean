/-
  PagePress.Decimal.Binary

  Doubles as exact numbers.

  A finite double is a signed natural number times a power of two; `read`
  takes it apart and `nearest` finds the double closest to a fraction, ties
  to the even mantissa.
-/

import PagePress.Decimal.Round

namespace PagePress.Decimal

/-- What a double stands for. -/
inductive Reading where
  | nan
  | infinite (negative : Bool)
  /-- The number `mantissa * 2 ^ exponent`, with a sign that zero has as well. -/
  | finite (negative : Bool) (mantissa : Nat) (exponent : Int)
  deriving DecidableEq

/-- The exponent of the finest doubles. -/
def leastExponent : Int := -1074

/-- Takes a double apart. -/
def read (x : Float) : Reading :=
  let bits := x.toBits.toNat
  let negative := decide (Nat.pow 2 63 ≤ bits)
  let field : Nat := bits / Nat.pow 2 52 % Nat.pow 2 11
  let fraction : Nat := bits % Nat.pow 2 52
  -- The last field holds the infinities and NaN, the first one the doubles without a leading bit.
  if field = 2047 then if fraction = 0 then .infinite negative else .nan
  else if field = 0 then .finite negative fraction leastExponent
  else .finite negative (Nat.pow 2 52 + fraction) ((field : Int) - 1075)

/-- The pair of factors, for numerator and denominator, that multiplies by a power of two. -/
def binaryScale (exponent : Int) : Nat × Nat :=
  (Nat.pow 2 exponent.toNat, Nat.pow 2 (-exponent).toNat)

/-- The double nearest to `num / den`; infinite where that is out of range. -/
def nearest (num den : Nat) : Float :=
  if num = 0 then 0.0 else
  let scaled (exponent : Int) : Nat × Nat :=
    let (up, down) := binaryScale exponent
    (num * down, den * up)
  -- With this exponent the quotient has 53 or 54 bits; of 54 one more has to go.
  let coarse : Int := num.log2 - den.log2 - 53
  let (n, d) := scaled coarse
  let exponent := max leastExponent (if n / d < Nat.pow 2 53 then coarse else coarse + 1)
  let (n, d) := scaled exponent
  -- The leading bit of the mantissa carries into the exponent field, and so does rounding up.
  let bits := (exponent - leastExponent).toNat * Nat.pow 2 52 + roundDiv .toEven n d
  Float.ofBits (UInt64.ofNat (min bits (2047 * Nat.pow 2 52)))

/-- The double nearest to an integer. -/
def nearestInt : Int → Float
  | .ofNat n => nearest n 1
  | .negSucc n => -(nearest (n + 1) 1)

/-- The double nearest to `significand * 10 ^ exponent`. -/
def nearestDecimal (significand : Nat) (exponent : Int) : Float :=
  let size : Int := (Nat.toDigits 10 significand).length + exponent
  -- This far out of range the size alone decides, and the powers of ten stay small.
  if size < -400 then 0.0
  else if 400 < size then if significand = 0 then 0.0 else nearest (Nat.pow 10 400) 1
  else nearest (significand * Nat.pow 10 exponent.toNat) (Nat.pow 10 (-exponent).toNat)

/-- The value of `significand * 10 ^ exponent` reached by rounding the significand to a double and
    then multiplying or dividing by powers of ten up to `10 ^ 308`, each step rounded. -/
def scaledDecimal (significand : Nat) (exponent : Int) : Option Float :=
  let start := nearest significand 1
  let power (k : Nat) : Float := nearest (Nat.pow 10 k) 1
  -- There is none where the result is too large; too small a one is zero.
  if 308 < exponent then if significand = 0 then some 0.0 else none
  else if 0 ≤ exponent then
    let x := start * power exponent.toNat
    if x.isInf then none else some x
  else if -308 ≤ exponent then some (start / power (-exponent).toNat)
  else if -616 ≤ exponent then some (start / power 308 / power (-exponent - 308).toNat)
  else some 0.0

end PagePress.Decimal
