/-
  PagePress.Decimal.Shortest

  The shortest decimal that reads back to a double.

  The reals that round to a double form an interval around it.  Decimals are
  tried on ever finer grids, one more digit at a time; on each grid only the
  two neighbours of the value can be its best members.  The first grid with
  a neighbour inside the interval gives the decimal, the nearer neighbour if
  both are inside.
-/

import PagePress.Decimal.Binary

namespace PagePress.Decimal

/-- The number `digits * 10 ^ exponent`. -/
structure Numeral where
  digits : Nat
  exponent : Int
  deriving DecidableEq

/-- The reals that round to a double: all of them in units of `1 / unit`. -/
structure Interval where
  low : Nat
  value : Nat
  high : Nat
  unit : Nat
  /-- Whether the two ends round to the double as well. -/
  closed : Bool

/-- The interval around `mantissa * 2 ^ exponent`, measured in quarters of the last place. -/
def Interval.around (mantissa : Nat) (exponent : Int) : Interval :=
  let (up, down) := binaryScale (exponent - 2)
  -- Below a power of two the doubles lie twice as close, so the lower half is shorter there.
  let below := if mantissa = Nat.pow 2 52 ∧ leastExponent < exponent then 1 else 2
  { low := (4 * mantissa - below) * up
    value := 4 * mantissa * up
    high := (4 * mantissa + 2) * up
    unit := down
    closed := mantissa % 2 = 0 }

/-- Whether `digits * 10 ^ exponent` lies in the interval. -/
def Interval.holds (i : Interval) (d : Numeral) : Bool :=
  let x := d.digits * Nat.pow 10 d.exponent.toNat * i.unit
  let scale := Nat.pow 10 (-d.exponent).toNat
  if i.closed then i.low * scale ≤ x && x ≤ i.high * scale
  else i.low * scale < x && x < i.high * scale

/-- The best decimal with a given exponent, if one lies in the interval. -/
def Interval.onGrid? (tie : Tie) (i : Interval) (exponent : Int) : Option Numeral :=
  let num := i.value * Nat.pow 10 (-exponent).toNat
  let den := i.unit * Nat.pow 10 exponent.toNat
  let down : Numeral := ⟨num / den, exponent⟩
  let up : Numeral := ⟨num / den + 1, exponent⟩
  match i.holds down, i.holds up with
  | true, true => some ⟨roundDiv tie num den, exponent⟩
  | true, false => some down
  | false, true => some up
  | false, false => none

/-- Tries a number of grids, each ten times as fine as the one before. -/
def Interval.search (tie : Tie) (i : Interval) : Nat → Int → Numeral
  | 0, exponent =>
    ⟨roundDiv tie (i.value * Nat.pow 10 (-exponent).toNat) (i.unit * Nat.pow 10 exponent.toNat),
      exponent⟩
  | grids + 1, exponent =>
    (i.onGrid? tie exponent).getD (i.search tie grids (exponent - 1))

/-- An exponent whose power of ten is above `num / den`. -/
def decimalCeiling (num den : Nat) : Int :=
  if den ≤ num then (Nat.toDigits 10 (num / den)).length
  else 2 - (Nat.toDigits 10 (den / num)).length

/-- The shortest decimal that reads back to `mantissa * 2 ^ exponent`. -/
def shortest (tie : Tie) (mantissa : Nat) (exponent : Int) : Numeral :=
  if mantissa = 0 then ⟨0, 0⟩ else
  let i := Interval.around mantissa exponent
  -- Seventeen digits always suffice, and the search starts at most two grids too coarse.
  i.search tie 20 (decimalCeiling i.value i.unit)

end PagePress.Decimal
