/-
  PagePress.Decimal.Layout

  Writing doubles: the layouts that print every significant digit, and the
  one that prints a fixed number of places.
-/

import PagePress.Decimal.Shortest
import PagePress.Text.Basic

namespace PagePress.Decimal

/-- The decisions of a format that writes the shortest digits of a double. -/
structure Layout where
  /-- Which digit an exact tie between two shortest decimals gives. -/
  tie : Tie
  /-- Whether a number is written without an exponent, by the exponent of its leading digit. -/
  isPositional : Int → Bool
  /-- What follows a whole number. -/
  wholeEnding : Text
  /-- What stands before an exponent that is not negative. -/
  exponentMark : Text
  /-- What stands before the digits of a negative exponent. -/
  negativeExponentMark : Text
  nan : Text
  infinity : Text

def zeros (n : Nat) : Text := List.replicate n '0'

/-- Digits followed by a power of ten, written without an exponent. -/
def positional (wholeEnding digits : Text) (exponent : Int) : Text :=
  if 0 ≤ exponent then digits ++ zeros exponent.toNat ++ wholeEnding
  else
    let places := (-exponent).toNat
    if places < digits.length then
      digits.take (digits.length - places) ++ '.' :: digits.drop (digits.length - places)
    else '0' :: '.' :: (zeros (places - digits.length) ++ digits)

def sign (negative : Bool) : Text := if negative then ['-'] else []

def Layout.unsigned (l : Layout) (d : Numeral) : Text :=
  let digits := Text.ofNat d.digits
  let leading : Int := d.exponent + digits.length - 1
  if l.isPositional leading then positional l.wholeEnding digits d.exponent
  else
    let fraction := if digits.length = 1 then [] else '.' :: digits.drop 1
    let power :=
      if 0 ≤ leading then l.exponentMark ++ Text.ofNat leading.toNat
      else l.negativeExponentMark ++ Text.ofNat (-leading).toNat
    digits.take 1 ++ fraction ++ power

/-- The text of a double in a layout. -/
def Layout.write (l : Layout) (x : Float) : Text :=
  match read x with
  | .nan => l.nan
  | .infinite negative => sign negative ++ l.infinity
  | .finite negative mantissa exponent =>
    sign negative ++ l.unsigned (shortest l.tie mantissa exponent)

/-- Plain numbers: no exponent however large or small the number is, and no point in a whole
    number. -/
def plain : Layout where
  tie := .up
  isPositional := fun _ => true
  wholeEnding := []
  exponentMark := []
  negativeExponentMark := []
  nan := "NaN"
  infinity := "inf"

/-- The text of a double with a fixed number of places after the point, rounded from its exact
    value with ties to even. -/
def fixed (places : Nat) (x : Float) : Text :=
  match read x with
  | .nan => "NaN"
  | .infinite negative => sign negative ++ "inf"
  | .finite negative mantissa exponent =>
    let (up, down) := binaryScale exponent
    let units := roundDiv .toEven (mantissa * up * Nat.pow 10 places) down
    let digits := Text.ofNat units
    -- At least one digit stands before the point.
    let padded := zeros (places + 1 - digits.length) ++ digits
    sign negative ++ positional [] padded (-places)

end PagePress.Decimal
