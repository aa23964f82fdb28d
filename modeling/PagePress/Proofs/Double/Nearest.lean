/-
  PagePress.Proofs.Double.Nearest

  Rounding to 53 binary digits.

  A magnitude is a quotient of whole numbers, in units of the least positive
  double; that of a sum or a product is a whole number over a power of two.
  It is rounded to a multiple of the power of two that leaves 53 digits, but
  never below one unit (`nearestQuotient`, `nearest`).  Rounding keeps the
  order of magnitudes, and it keeps the magnitude of every double.
-/

import Mathlib.Algebra.Group.Nat.Defs

namespace PagePress.Double

/-! ## Whole numbers -/

/-- The whole number that is nearest to a quotient; of two such, the even one. -/
def roundedQuotient (a d : Nat) : Nat :=
  let q := a / d
  let r := a % d
  if 2 * r < d then q
  else if d < 2 * r then q + 1
  else q + q % 2

theorem roundedQuotient_le (a d : Nat) : roundedQuotient a d ≤ a / d + 1 := by
  unfold roundedQuotient
  dsimp only
  split <;> try split
  all_goals omega

theorem le_roundedQuotient (a d : Nat) : a / d ≤ roundedQuotient a d := by
  unfold roundedQuotient
  dsimp only
  split <;> try split
  all_goals omega

theorem roundedQuotient_mono {a b : Nat} (h : a ≤ b) (d : Nat) :
    roundedQuotient a d ≤ roundedQuotient b d := by
  obtain hlt | heq := Nat.lt_or_eq_of_le (Nat.div_le_div_right (c := d) h)
  · exact Nat.le_trans (roundedQuotient_le a d) (Nat.le_trans hlt (le_roundedQuotient b d))
  · -- Between the same whole numbers the remainders are in the order of the numbers.
    have ha := Nat.div_add_mod a d
    have hb := Nat.div_add_mod b d
    rw [← heq] at hb
    have hrest : a % d ≤ b % d := by omega
    unfold roundedQuotient
    dsimp only
    rw [← heq]
    split <;> split <;> repeat' split
    all_goals omega

/-- A quotient does not change when both numbers are multiplied. -/
theorem roundedQuotient_scale {c : Nat} (hpos : 0 < c) (a d : Nat) :
    roundedQuotient (a * c) (d * c) = roundedQuotient a d := by
  have hlow : 2 * (a % d * c) < d * c ↔ 2 * (a % d) < d := by
    rw [← Nat.mul_assoc, Nat.mul_lt_mul_right hpos]
  have hhigh : d * c < 2 * (a % d * c) ↔ d < 2 * (a % d) := by
    rw [← Nat.mul_assoc, Nat.mul_lt_mul_right hpos]
  unfold roundedQuotient
  simp only [Nat.mul_div_mul_right _ _ hpos, Nat.mul_mod_mul_right, hlow, hhigh]

/-- The whole number that is nearest to a number over a power of two; of two such, the even one. -/
def halfEven (a k : Nat) : Nat :=
  let q := a / 2 ^ k
  let r := a % 2 ^ k
  if 2 * r < 2 ^ k then q
  else if 2 ^ k < 2 * r then q + 1
  else q + q % 2

theorem halfEven_eq (a k : Nat) : halfEven a k = roundedQuotient a (2 ^ k) := rfl

theorem halfEven_zero (a : Nat) : halfEven a 0 = a := by
  simp [halfEven, Nat.mod_one]

theorem halfEven_scale (a k c : Nat) : halfEven (a * 2 ^ c) (k + c) = halfEven a k := by
  rw [halfEven_eq, halfEven_eq, Nat.pow_add, roundedQuotient_scale (Nat.two_pow_pos c)]

/-- A multiple of the power of two is not changed. -/
theorem halfEven_mul (a k : Nat) : halfEven (a * 2 ^ k) k = a := by
  have h := halfEven_scale a 0 k
  rwa [Nat.zero_add, halfEven_zero] at h

/-! ## Quotients -/

/-- The exponent of the unit that a quotient is rounded to. -/
def quotientUnit (a d : Nat) : Nat := (a / d).log2 - 52

/-- The magnitude of a double that is nearest to a quotient. -/
def nearestQuotient (a d : Nat) : Nat :=
  roundedQuotient a (d * 2 ^ quotientUnit a d) * 2 ^ quotientUnit a d

/-- No more than 53 digits are left above the unit. -/
theorem div_lt_unit (a d : Nat) : a / d < 2 ^ (53 + quotientUnit a d) := by
  have hlog := Nat.lt_log2_self (n := a / d)
  have hexp : (a / d).log2 + 1 ≤ 53 + quotientUnit a d := by
    unfold quotientUnit
    omega
  exact Nat.lt_of_lt_of_le hlog (Nat.pow_le_pow_right (by decide) hexp)

/-- Above the least unit, no fewer than 53 digits are left. -/
theorem unit_le_div {a d : Nat} (h : quotientUnit a d ≠ 0) :
    2 ^ (52 + quotientUnit a d) ≤ a / d := by
  have hexp : 52 + quotientUnit a d = (a / d).log2 := by
    unfold quotientUnit at h ⊢
    omega
  rw [hexp]
  refine Nat.log2_self_le fun hzero => h ?_
  rw [quotientUnit, hzero]
  rfl

/-- There is only one unit that leaves 53 digits. -/
theorem quotientUnit_eq {a d u : Nat} (hlt : a / d < 2 ^ (53 + u))
    (hle : 2 ^ (52 + u) ≤ a / d ∨ u = 0) : quotientUnit a d = u := by
  have hupper : (a / d).log2 < 53 + u ∨ a / d = 0 := by
    by_cases hzero : a / d = 0
    · exact .inr hzero
    · exact .inl ((Nat.log2_lt hzero).2 hlt)
  unfold quotientUnit
  rcases hle with hle | rfl
  · have hzero : a / d ≠ 0 := fun h => by simp [h] at hle
    have hlower := (Nat.le_log2 hzero).2 hle
    omega
  · rcases hupper with hupper | hzero
    · omega
    · rw [hzero]
      rfl

theorem quotientUnit_mono {a b : Nat} (h : a ≤ b) (d : Nat) :
    quotientUnit a d ≤ quotientUnit b d := by
  by_cases hzero : quotientUnit a d = 0
  · omega
  · have hlt := Nat.lt_of_le_of_lt
      (Nat.le_trans (unit_le_div hzero) (Nat.div_le_div_right h)) (div_lt_unit b d)
    have hexp := (Nat.pow_lt_pow_iff_right (by decide)).1 hlt
    omega

theorem roundedQuotient_unit_le (a d : Nat) :
    roundedQuotient a (d * 2 ^ quotientUnit a d) ≤ 2 ^ 53 := by
  have hdiv : a / (d * 2 ^ quotientUnit a d) < 2 ^ 53 := by
    rw [← Nat.div_div_eq_div_mul, Nat.div_lt_iff_lt_mul (Nat.two_pow_pos _), ← Nat.pow_add]
    exact div_lt_unit a d
  exact Nat.le_trans (roundedQuotient_le _ _) hdiv

theorem le_roundedQuotient_unit {a d : Nat} (h : quotientUnit a d ≠ 0) :
    2 ^ 52 ≤ roundedQuotient a (d * 2 ^ quotientUnit a d) := by
  refine Nat.le_trans ?_ (le_roundedQuotient _ _)
  rw [← Nat.div_div_eq_div_mul, Nat.le_div_iff_mul_le (Nat.two_pow_pos _), ← Nat.pow_add]
  exact unit_le_div h

/-- Rounding keeps the order of quotients. -/
theorem nearestQuotient_mono {a b : Nat} (h : a ≤ b) (d : Nat) :
    nearestQuotient a d ≤ nearestQuotient b d := by
  unfold nearestQuotient
  obtain hlt | heq := Nat.lt_or_eq_of_le (quotientUnit_mono h d)
  · -- At a smaller unit a quotient stays below all that are rounded to a larger one.
    calc roundedQuotient a (d * 2 ^ quotientUnit a d) * 2 ^ quotientUnit a d
        ≤ 2 ^ 53 * 2 ^ quotientUnit a d := Nat.mul_le_mul_right _ (roundedQuotient_unit_le a d)
      _ = 2 ^ 52 * 2 ^ (quotientUnit a d + 1) := by rw [Nat.pow_succ]; omega
      _ ≤ 2 ^ 52 * 2 ^ quotientUnit b d :=
          Nat.mul_le_mul_left _ (Nat.pow_le_pow_right (by decide) hlt)
      _ ≤ roundedQuotient b (d * 2 ^ quotientUnit b d) * 2 ^ quotientUnit b d :=
          Nat.mul_le_mul_right _ (le_roundedQuotient_unit (by omega))
  · rw [heq]
    exact Nat.mul_le_mul_right _ (roundedQuotient_mono h _)

theorem nearestQuotient_zero (d : Nat) : nearestQuotient 0 d = 0 := by
  have hzero (d : Nat) : roundedQuotient 0 d = 0 := by
    rw [roundedQuotient, Nat.zero_div, Nat.zero_mod]
    repeat' split
    all_goals omega
  rw [nearestQuotient, hzero, Nat.zero_mul]

/-- Rounding depends on the quotient alone. -/
theorem nearestQuotient_scale {c : Nat} (hpos : 0 < c) (a d : Nat) :
    nearestQuotient (a * c) (d * c) = nearestQuotient a d := by
  have hunit : quotientUnit (a * c) (d * c) = quotientUnit a d := by
    rw [quotientUnit, quotientUnit, Nat.mul_div_mul_right _ _ hpos]
  rw [nearestQuotient, nearestQuotient, hunit, Nat.mul_right_comm, roundedQuotient_scale hpos]

/-! ## Magnitudes -/

/-- The exponent of the unit that a magnitude is rounded to. -/
def unitExponent (a n : Nat) : Nat := (a / 2 ^ n).log2 - 52

/-- The magnitude of a double that is nearest to a number over a power of two. -/
def nearest (a n : Nat) : Nat := halfEven a (n + unitExponent a n) * 2 ^ unitExponent a n

theorem nearest_eq (a n : Nat) : nearest a n = nearestQuotient a (2 ^ n) := by
  rw [nearest, halfEven_eq, Nat.pow_add]
  rfl

theorem nearest_zero (n : Nat) : nearest 0 n = 0 := by
  rw [nearest_eq, nearestQuotient_zero]

/-- Rounding keeps the order. -/
theorem nearest_mono {a b : Nat} (h : a ≤ b) (n : Nat) : nearest a n ≤ nearest b n := by
  rw [nearest_eq, nearest_eq]
  exact nearestQuotient_mono h _

/-- Rounding depends on the magnitude alone. -/
theorem nearest_scale (a n c : Nat) : nearest (a * 2 ^ c) (n + c) = nearest a n := by
  rw [nearest_eq, nearest_eq, Nat.pow_add, nearestQuotient_scale (Nat.two_pow_pos c)]

/-- A magnitude with at most 53 digits, and zeros after them, is not changed. -/
theorem nearest_of_digits {m : Nat} (hlt : m < 2 ^ 53) (u : Nat) :
    nearest (m * 2 ^ u) 0 = m * 2 ^ u := by
  have hunit : unitExponent (m * 2 ^ u) 0 ≤ u := by
    have hmagnitude : m * 2 ^ u < 2 ^ (53 + u) := by
      rw [Nat.pow_add]
      exact Nat.mul_lt_mul_of_pos_right hlt (Nat.two_pow_pos u)
    rw [unitExponent, Nat.pow_zero, Nat.div_one]
    by_cases hzero : m * 2 ^ u = 0
    · rw [hzero]
      exact Nat.zero_le u
    · have hlog := (Nat.log2_lt hzero).2 hmagnitude
      omega
  rw [nearest]
  generalize unitExponent (m * 2 ^ u) 0 = v at hunit
  obtain ⟨w, rfl⟩ := Nat.exists_eq_add_of_le' hunit
  rw [Nat.pow_add, ← Nat.mul_assoc, Nat.zero_add, halfEven_mul]

/-- What is at most a power of two with enough digits stays so. -/
theorem nearest_le_pow {a k : Nat} (h : a ≤ 2 ^ (52 + k)) : nearest a 0 ≤ 2 ^ (52 + k) := by
  have hpow : nearest (2 ^ (52 + k)) 0 = 2 ^ (52 + k) := by
    rw [Nat.pow_add]
    exact nearest_of_digits (by decide) k
  calc nearest a 0 ≤ nearest (2 ^ (52 + k)) 0 := nearest_mono h 0
    _ = 2 ^ (52 + k) := hpow

theorem mul_pow_le {a j : Nat} (h : a ≤ 2 ^ j) (k : Nat) : a * 2 ^ k ≤ 2 ^ (j + k) := by
  rw [Nat.pow_add]
  exact Nat.mul_le_mul_right _ h

end PagePress.Double
