/-
  PagePress.Decimal.Round

  Rounding a quotient of natural numbers to a natural number.

  The nearer neighbour wins; a tie between the two goes by a rule that the
  caller gives.
-/

namespace PagePress.Decimal

/-- Where a value goes that lies exactly between two neighbours. -/
inductive Tie where
  | toEven
  | up
  deriving DecidableEq

/-- Which of `low` and `low + 1` a tie between them gives. -/
def Tie.choose (tie : Tie) (low : Nat) : Nat :=
  match tie with
  | .up => low + 1
  | .toEven => if low % 2 = 0 then low else low + 1

/-- The natural number nearest to `num / den`. -/
def roundDiv (tie : Tie) (num den : Nat) : Nat :=
  let low := num / den
  match compare (2 * (num % den)) den with
  | .lt => low
  | .gt => low + 1
  | .eq => tie.choose low

end PagePress.Decimal
