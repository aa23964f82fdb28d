/-
  PagePress.Proofs.Double.Rounding

  Results of arithmetic on doubles.

  A result is given by digits, an exponent and what is left of a quotient
  behind the last digit, which is nothing for an exact one.  It is then rounded:
  digits are dropped down to the unit, and a carry may cost one more.  What
  comes out has the magnitude that is nearest to the exact one
  (`roundWithAccuracy_quotient`), so that the magnitude of a sum, a product or
  a quotient is a function of the magnitudes alone.
-/

import PagePress.Proofs.Double.Packing

namespace PagePress.Double

open Float.Model (Format UnpackedFloat totalExponent)
open Float.Model.UnpackedFloat

/-! ## Dropping digits -/

/-- A quotient with what decides between the whole numbers around it. -/
def extended (a d : Nat) : ExtendedMantissa :=
  ⟨a / d, decide (d ≤ 2 * (a % d)), decide (a % d ≠ 0 ∧ 2 * (a % d) ≠ d)⟩

theorem extended_eq {d : Nat} (hpos : 0 < d) (a : Nat) :
    ExtendedMantissa.ofMantissaAndAccuracy (a / d) (accuracyOfFraction (a % d) d) =
      extended a d := by
  rw [accuracyOfFraction, extended]
  by_cases hzero : a % d = 0
  · rw [if_pos hzero, decide_eq_false (by omega), decide_eq_false (by omega)]
    rfl
  · rw [if_neg hzero]
    rcases Nat.lt_trichotomy (2 * (a % d)) d with hlt | heq | hgt
    · rw [Nat.compare_eq_lt.2 hlt, decide_eq_false (by omega), decide_eq_true (by omega)]
      rfl
    · rw [Nat.compare_eq_eq.2 heq, decide_eq_true (by omega), decide_eq_false (by omega)]
      rfl
    · rw [Nat.compare_eq_gt.2 hgt, decide_eq_true (by omega), decide_eq_true (by omega)]
      rfl

/-- Dropping digits one by one keeps what decides between the whole numbers around. -/
theorem shift_extended {d : Nat} (hpos : 0 < d) (a k : Nat) :
    extended a d >>> k = extended a (d * 2 ^ k) := by
  induction k with
  | zero => rw [Nat.pow_zero, Nat.mul_one]; rfl
  | succ k ih =>
      have hpos' : 0 < d * 2 ^ k := Nat.mul_pos hpos (Nat.two_pow_pos k)
      have hpow : d * 2 ^ (k + 1) = d * 2 ^ k * 2 := by rw [Nat.pow_succ, Nat.mul_assoc]
      have hrest : a % (d * 2 ^ k) < d * 2 ^ k := Nat.mod_lt _ hpos'
      have hmod : a % (d * 2 ^ k * 2) = a % (d * 2 ^ k) + d * 2 ^ k * (a / (d * 2 ^ k) % 2) :=
        Nat.mod_mul
      show (extended a d >>> k).shiftRightOne = _
      rw [ih, ExtendedMantissa.shiftRightOne, hpow]
      unfold extended
      rw [ExtendedMantissa.mk.injEq, hmod]
      refine ⟨?_, ?_, ?_⟩
      · rw [Nat.div_div_eq_div_mul]
      · rw [Bool.eq_iff_iff, bne_iff_ne, decide_eq_true_iff]
        rcases Nat.mod_two_eq_zero_or_one (a / (d * 2 ^ k)) with hbit | hbit <;> rw [hbit] <;> omega
      · rw [Bool.eq_iff_iff, Bool.or_eq_true]
        simp only [decide_eq_true_iff]
        rcases Nat.mod_two_eq_zero_or_one (a / (d * 2 ^ k)) with hbit | hbit <;> rw [hbit] <;> omega

/-- What decides between the whole numbers around a quotient decides for the nearest one. -/
theorem roundedMantissa_extended {d : Nat} (hpos : 0 < d) (a : Nat) :
    (extended a d).roundedMantissa = roundedQuotient a d := by
  rw [extended, roundedQuotient]
  rcases Nat.lt_trichotomy (2 * (a % d)) d with hlt | heq | hgt
  · rw [if_pos hlt, decide_eq_false (by omega)]
    by_cases hzero : a % d = 0
    · rw [decide_eq_false (by omega)]
      rfl
    · rw [decide_eq_true (by omega)]
      rfl
  · rw [if_neg (by omega), if_neg (by omega), decide_eq_true (by omega), decide_eq_false (by omega)]
    rfl
  · rw [if_neg (by omega), if_pos hgt, decide_eq_true (by omega), decide_eq_true (by omega)]
    rfl

/-! ## Carrying -/

theorem targetExponent_eq (m : Nat) (e : Int) :
    Format.binary64.targetExponent (totalExponent m e) = max (m.log2 + e - 52) (-1074) := by
  have hbits : (Format.binary64.mantissaBits : Int) = 53 := rfl
  have hleast : Format.binary64.minExponent = -1074 := rfl
  rw [Format.targetExponent, totalExponent, hbits, hleast]
  omega

/-- The number with digits that may be one too many. -/
def carry (s : Sign) (m : Nat) (e : Int) : UnpackedFloat :=
  let (em, e') := shiftToTargetExponent Format.binary64 m e .exact
  if h : em.mantissa = 0 then .zero s else .finite s em.mantissa e' (Nat.pos_of_ne_zero h)

theorem roundWithAccuracy_eq (s : Sign) (m : Nat) (e : Int) (a : Accuracy) :
    roundWithAccuracy Format.binary64 s m e a =
      carry s (shiftToTargetExponent Format.binary64 m e a).1.roundedMantissa
        (shiftToTargetExponent Format.binary64 m e a).2 :=
  rfl

theorem carry_of_lt (s : Sign) {m : Nat} {e : Int} (hlt : m < 2 ^ 53) (hleast : -1074 ≤ e) :
    carry s m e = if h : m = 0 then .zero s else .finite s m e (Nat.pos_of_ne_zero h) := by
  have hlog : m.log2 ≤ 52 := by
    by_cases hzero : m = 0
    · rw [hzero]
      decide
    · have := (Nat.log2_lt hzero).2 hlt
      omega
  have hshift : shiftToTargetExponent Format.binary64 m e .exact = (⟨m, false, false⟩, e) := by
    have hnone : (Format.binary64.targetExponent (totalExponent m e) - e).toNat = 0 := by
      rw [targetExponent_eq]
      omega
    rw [shiftToTargetExponent, shiftToExponent, hnone]
    exact congrArg (Prod.mk _) (Int.add_zero e)
  rw [carry, hshift]

theorem carry_full (s : Sign) {e : Int} (hleast : -1074 ≤ e) :
    carry s (2 ^ 53) e = .finite s (2 ^ 52) (e + 1) (by decide) := by
  have hshift : shiftToTargetExponent Format.binary64 (2 ^ 53) e .exact =
      (⟨2 ^ 52, false, false⟩, e + 1) := by
    have hone : (Format.binary64.targetExponent (totalExponent (2 ^ 53) e) - e).toNat = 1 := by
      rw [targetExponent_eq, Nat.log2_two_pow]
      omega
    rw [shiftToTargetExponent, shiftToExponent, hone]
    rfl
  rw [carry, hshift]
  rfl

/-- A carry changes the digits and not the magnitude. -/
theorem carry_spec (s : Sign) {m : Nat} {e : Int} (hle : m ≤ 2 ^ 53) (hleast : -1074 ≤ e)
    (hnormal : 2 ^ 52 ≤ m ∨ e = -1074) :
    Canonical (carry s m e) ∧ magnitude (carry s m e) = m * 2 ^ (e + 1074).toNat := by
  obtain hlt | rfl := Nat.lt_or_eq_of_le hle
  · rw [carry_of_lt s hlt hleast]
    by_cases hzero : m = 0
    · rw [dif_pos hzero]
      exact ⟨trivial, by rw [hzero, Nat.zero_mul]; rfl⟩
    · rw [dif_neg hzero]
      exact ⟨⟨hlt, hleast, hnormal⟩, rfl⟩
  · rw [carry_full s hleast]
    refine ⟨⟨by decide, by omega, .inl (Nat.le_refl _)⟩, ?_⟩
    have hexp : (e + 1 + 1074).toNat = (e + 1074).toNat + 1 := by omega
    show 2 ^ 52 * 2 ^ (e + 1 + 1074).toNat = _
    rw [hexp, Nat.pow_succ]
    omega

/-! ## Rounding -/

/-- The unit of a result, from its digits and exponent. -/
theorem quotientUnit_of_digits {b d a n : Nat} {e t : Int} (hpos : 0 < d) (he : e = a - n - 1074)
    (hdigits : 2 ^ 52 ≤ b / d ∨ e ≤ -1074) (ht : t = max ((b / d).log2 + e - 52) (-1074)) :
    (quotientUnit (b * 2 ^ a) (d * 2 ^ n) : Int) = t + 1074 := by
  have hpos' : 0 < d * 2 ^ n := Nat.mul_pos hpos (Nat.two_pow_pos n)
  have hunit : quotientUnit (b * 2 ^ a) (d * 2 ^ n) = (t + 1074).toNat := by
    refine quotientUnit_eq ?_ ?_
    · have hupper : b < 2 ^ ((b / d).log2 + 1) * d := by
        rw [← Nat.div_lt_iff_lt_mul hpos]
        exact Nat.lt_log2_self
      rw [Nat.div_lt_iff_lt_mul hpos']
      calc b * 2 ^ a < 2 ^ ((b / d).log2 + 1) * d * 2 ^ a :=
            Nat.mul_lt_mul_of_pos_right hupper (Nat.two_pow_pos a)
        _ = 2 ^ ((b / d).log2 + 1 + a) * d := by rw [Nat.pow_add _ _ a, Nat.mul_right_comm]
        _ ≤ 2 ^ (53 + (t + 1074).toNat + n) * d :=
            Nat.mul_le_mul_right _ (Nat.pow_le_pow_right (by decide) (by omega))
        _ = _ := by rw [Nat.pow_add, Nat.mul_assoc, Nat.mul_comm (2 ^ n)]
    · by_cases hleast : (b / d).log2 + e - 52 ≤ -1074
      · exact .inr (by omega)
      · refine .inl ?_
        -- Above the least unit there are digits.
        have hzero : b / d ≠ 0 := fun hzero => by
          have hlog : (b / d).log2 = 0 := by rw [hzero]; rfl
          have : ¬ 2 ^ 52 ≤ b / d := by omega
          omega
        have hlower : 2 ^ (b / d).log2 * d ≤ b := by
          rw [← Nat.le_div_iff_mul_le hpos]
          exact Nat.log2_self_le hzero
        have hexp : 52 + (t + 1074).toNat + n = (b / d).log2 + a := by omega
        rw [Nat.le_div_iff_mul_le hpos']
        calc 2 ^ (52 + (t + 1074).toNat) * (d * 2 ^ n)
            = 2 ^ (52 + (t + 1074).toNat + n) * d := by
              rw [Nat.pow_add _ _ n, Nat.mul_assoc, Nat.mul_comm (2 ^ n)]
          _ = 2 ^ (b / d).log2 * d * 2 ^ a := by rw [hexp, Nat.pow_add, Nat.mul_right_comm]
          _ ≤ b * 2 ^ a := Nat.mul_le_mul_right _ hlower
  omega

/-- A quotient rounds to the nearest magnitude if it has enough digits. -/
theorem roundWithAccuracy_quotient (s : Sign) {b d a n : Nat} {e : Int} (hpos : 0 < d)
    (he : e = a - n - 1074) (hdigits : 2 ^ 52 ≤ b / d ∨ e ≤ -1074) :
    let u := roundWithAccuracy Format.binary64 s (b / d) e (accuracyOfFraction (b % d) d)
    Canonical u ∧ magnitude u = nearestQuotient (b * 2 ^ a) (d * 2 ^ n) := by
  intro u
  -- The exponent down to which digits are dropped; it is not below `e` with enough digits.
  obtain ⟨t, ht⟩ : ∃ t, t = max ((b / d).log2 + e - 52) (-1074) := ⟨_, rfl⟩
  have hunit := quotientUnit_of_digits hpos he hdigits ht
  have hlog : 52 ≤ (b / d).log2 ∨ e ≤ -1074 := by
    refine hdigits.imp_left fun hle => (Nat.le_log2 ?_).2 hle
    exact Nat.ne_of_gt (Nat.lt_of_lt_of_le (by decide) hle)
  have hexp : a + (t - e).toNat = n + quotientUnit (b * 2 ^ a) (d * 2 ^ n) := by omega
  have hcarry : u = carry s (roundedQuotient (b * 2 ^ a)
      (d * 2 ^ n * 2 ^ quotientUnit (b * 2 ^ a) (d * 2 ^ n))) t := by
    have hscale : d * 2 ^ n * 2 ^ quotientUnit (b * 2 ^ a) (d * 2 ^ n) =
        d * 2 ^ (t - e).toNat * 2 ^ a := by
      rw [Nat.mul_assoc, Nat.mul_assoc, ← Nat.pow_add, ← Nat.pow_add, ← hexp, Nat.add_comm a]
    rw [hscale, roundedQuotient_scale (Nat.two_pow_pos a)]
    rw [show u = _ from roundWithAccuracy_eq .., shiftToTargetExponent, shiftToExponent,
      targetExponent_eq, ← ht]
    dsimp only
    rw [extended_eq hpos, shift_extended hpos,
      roundedMantissa_extended (Nat.mul_pos hpos (Nat.two_pow_pos _))]
    congr 1
    omega
  have hnormal : 2 ^ 52 ≤ roundedQuotient (b * 2 ^ a)
      (d * 2 ^ n * 2 ^ quotientUnit (b * 2 ^ a) (d * 2 ^ n)) ∨ t = -1074 := by
    by_cases hzero : quotientUnit (b * 2 ^ a) (d * 2 ^ n) = 0
    · exact .inr (by omega)
    · exact .inl (le_roundedQuotient_unit hzero)
  have hspec := carry_spec s (roundedQuotient_unit_le _ _) (by omega) hnormal
  have hlast : (t + 1074).toNat = quotientUnit (b * 2 ^ a) (d * 2 ^ n) := by omega
  rw [hlast] at hspec
  rw [hcarry]
  exact hspec

/-- An exact result rounds to the nearest magnitude if it has enough digits. -/
theorem roundWithAccuracy_spec (s : Sign) {m a n : Nat} {e : Int}
    (he : e = a - n - 1074) (hdigits : 2 ^ 52 ≤ m ∨ e ≤ -1074) :
    Canonical (roundWithAccuracy Format.binary64 s m e .exact) ∧
      magnitude (roundWithAccuracy Format.binary64 s m e .exact) = nearest (m * 2 ^ a) n := by
  have hdigits' : 2 ^ 52 ≤ m / 1 ∨ e ≤ -1074 := by rwa [Nat.div_one]
  have hexact : accuracyOfFraction (m % 1) 1 = .exact := by
    rw [Nat.mod_one]
    rfl
  have hspec := roundWithAccuracy_quotient s (b := m) Nat.one_pos he hdigits'
  rwa [Nat.div_one, hexact, Nat.one_mul, ← nearest_eq] at hspec

/-- An exact result of too few digits gets more of them first. -/
theorem round_spec (s : Sign) {m : Nat} {e : Int} (hpos : 0 < m) (hleast : -1074 ≤ e) :
    Canonical (UnpackedFloat.round Format.binary64 s m e) ∧
      magnitude (UnpackedFloat.round Format.binary64 s m e) =
        nearest (m * 2 ^ (e + 1074).toNat) 0 := by
  have hlog := Nat.log2_self_le (Nat.ne_of_gt hpos)
  rw [UnpackedFloat.round, targetExponent_eq, decreaseExponent]
  generalize hk : (e - max (m.log2 + e - 52) (-1074)).toNat = k
  dsimp only
  have hvalue : m * 2 ^ (e + 1074).toNat = m <<< k * 2 ^ ((e + 1074).toNat - k) := by
    rw [Nat.shiftLeft_eq, Nat.mul_assoc, ← Nat.pow_add]
    congr 2
    omega
  have hdigits : 2 ^ 52 ≤ m <<< k ∨ e - k ≤ -1074 := by
    by_cases hlow : e - k ≤ -1074
    · exact .inr hlow
    · refine .inl ?_
      rw [Nat.shiftLeft_eq]
      calc 2 ^ 52 ≤ 2 ^ (m.log2 + k) := Nat.pow_le_pow_right (by decide) (by omega)
        _ = 2 ^ m.log2 * 2 ^ k := Nat.pow_add ..
        _ ≤ m * 2 ^ k := Nat.mul_le_mul_right _ hlog
  rw [hvalue]
  exact roundWithAccuracy_spec s (by omega) hdigits

theorem nonneg_carry (m : Nat) (e : Int) : Nonneg (carry .positive m e) := by
  unfold carry
  rcases shiftToTargetExponent Format.binary64 m e .exact with ⟨em, e'⟩
  dsimp only
  by_cases hzero : em.mantissa = 0
  · rw [dif_pos hzero]
    trivial
  · rw [dif_neg hzero]
    rfl

theorem nonneg_roundWithAccuracy (m : Nat) (e : Int) (a : Accuracy) :
    Nonneg (roundWithAccuracy Format.binary64 .positive m e a) := by
  rw [roundWithAccuracy_eq]
  exact nonneg_carry _ _

/-! ## Arithmetic -/

/-- A result with a magnitude: it is not negative, and it has that magnitude once it is stored. -/
structure Results (u : UnpackedFloat) (a : Nat) : Prop where
  canonical : Canonical u
  nonneg : Nonneg u
  magnitude_eq : min infinite (magnitude u) = min infinite a

/-- A double is the result that has its own magnitude. -/
theorem results_self {u : UnpackedFloat} (hu : Storable u) (hu' : Nonneg u) :
    Results u (nearest (magnitude u) 0) :=
  ⟨hu.canonical, hu', congrArg (min infinite) (nearest_magnitude hu.canonical).symm⟩

/-- What is too large is infinite. -/
theorem results_infinite {a : Nat} (h : infinite ≤ a) :
    Results (.infinity .positive) (nearest a 0) where
  canonical := trivial
  nonneg := rfl
  magnitude_eq := by
    have hle : infinite ≤ nearest a 0 :=
      calc infinite
          = nearest infinite 0 := (nearest_magnitude (u := .infinity .positive) trivial).symm
        _ ≤ nearest a 0 := nearest_mono h 0
    rw [Nat.min_eq_left hle]
    exact Nat.min_self _

theorem normalize_results {m : Nat} {e : Int} (hpos : 0 < m) (hleast : -1074 ≤ e) :
    Results (UnpackedFloat.normalize Format.binary64 m e .positive)
      (nearest (m * 2 ^ (e + 1074).toNat) 0) := by
  have hgt : Ord.compare (m : Int) 0 = .gt := Int.compare_eq_gt.2 (by omega)
  have hspec := round_spec .positive hpos hleast
  rw [UnpackedFloat.normalize, hgt]
  exact ⟨hspec.1, nonneg_roundWithAccuracy _ _ _, congrArg (min infinite) hspec.2⟩

/-- More digits for a smaller exponent leave a magnitude as it is. -/
theorem magnitude_decreaseExponent (m : Nat) {e t : Int} (hle : t ≤ e) (hleast : -1074 ≤ t) :
    (decreaseExponent m e t).1 * 2 ^ (t + 1074).toNat = m * 2 ^ (e + 1074).toNat := by
  rw [decreaseExponent, Nat.shiftLeft_eq, Nat.mul_assoc, ← Nat.pow_add]
  congr 2
  omega

theorem add_finite_results {m m' : Nat} {e e' : Int} {hm : 0 < m} {hm' : 0 < m'}
    (h : Digits m e) (h' : Digits m' e') :
    Results (add Format.binary64 (.finite .positive m e hm) (.finite .positive m' e' hm'))
      (nearest (m * 2 ^ (e + 1074).toNat + m' * 2 ^ (e' + 1074).toNat) 0) := by
  have hleast : -1074 ≤ min e e' := Int.le_min.2 ⟨h.least_le, h'.least_le⟩
  have hpos : 0 < (decreaseExponent m e (min e e')).1 := by
    rw [decreaseExponent, Nat.shiftLeft_eq]
    exact Nat.mul_pos hm (Nat.two_pow_pos _)
  have hsum := normalize_results
    (Nat.add_pos_left hpos (decreaseExponent m' e' (min e e')).1) hleast
  rwa [Nat.add_mul, magnitude_decreaseExponent m (Int.min_le_left e e') hleast,
    magnitude_decreaseExponent m' (Int.min_le_right e e') hleast] at hsum

/-- The magnitude of a sum is the one nearest to the sum of the magnitudes. -/
theorem add_results {u v : UnpackedFloat} (hu : Storable u) (hv : Storable v) (hu' : Nonneg u)
    (hv' : Nonneg v) :
    Results (add Format.binary64 u v) (nearest (magnitude u + magnitude v) 0) := by
  cases u with
  | notANumber => exact hu'.elim
  | infinity s =>
      obtain rfl : s = .positive := hu'
      have hsum : add Format.binary64 (.infinity .positive) v = .infinity .positive := by
        cases v with
        | notANumber => exact hv'.elim
        | infinity s' =>
            obtain rfl : s' = .positive := hv'
            rfl
        | _ => rfl
      rw [hsum]
      exact results_infinite (Nat.le_add_right _ _)
  | zero s =>
      rw [show magnitude (.zero s) = 0 from rfl, Nat.zero_add]
      cases v with
      | notANumber => exact hv'.elim
      | zero s' =>
          have hsum : ∃ t, add Format.binary64 (.zero s) (.zero s') = .zero t := by
            cases s <;> cases s' <;> exact ⟨_, rfl⟩
          obtain ⟨t, ht⟩ := hsum
          rw [ht]
          exact results_self (u := .zero t) trivial trivial
      | _ => exact results_self hv hv'
  | finite s m e hm =>
      obtain rfl : s = .positive := hu'
      cases v with
      | notANumber => exact hv'.elim
      | infinity s' =>
          obtain rfl : s' = .positive := hv'
          exact results_infinite (Nat.le_add_left _ _)
      | zero s' => exact results_self hu rfl
      | finite s' m' e' hm' =>
          obtain rfl : s' = .positive := hv'
          exact add_finite_results hu.1 hv.1

theorem mul_finite_results {m m' : Nat} {e e' : Int} {hm : 0 < m} {hm' : 0 < m'}
    (h : Digits m e) (h' : Digits m' e') :
    Results (mul Format.binary64 (.finite .positive m e hm) (.finite .positive m' e' hm'))
      (nearest (m * 2 ^ (e + 1074).toNat * (m' * 2 ^ (e' + 1074).toNat)) oneExponent) := by
  have hleast := h.least_le
  have hleast' := h'.least_le
  have hdigits : 2 ^ 52 ≤ m * m' ∨ e + e' ≤ -1074 := by
    rcases h.normal with hnormal | rfl
    · exact .inl (Nat.le_trans hnormal (Nat.le_mul_of_pos_right m hm'))
    · rcases h'.normal with hnormal | rfl
      · exact .inl (Nat.le_trans hnormal (Nat.le_mul_of_pos_left m' hm))
      · exact .inr (by decide)
  have hspec := roundWithAccuracy_spec .positive (a := (e + 1074).toNat + (e' + 1074).toNat)
    (n := oneExponent) (e := e + e') (by unfold oneExponent; omega) hdigits
  rw [Nat.pow_add, Nat.mul_mul_mul_comm] at hspec
  exact ⟨hspec.1, nonneg_roundWithAccuracy _ _ _, congrArg (min infinite) hspec.2⟩

/-- The magnitude of a product of finite numbers is the one nearest to the product of the
    magnitudes. -/
theorem mul_results {u v : UnpackedFloat} (hu : Storable u) (hv : Storable v) (hu' : Nonneg u)
    (hv' : Nonneg v) (hfinite : u.isFinite = true) (hfinite' : v.isFinite = true) :
    Results (mul Format.binary64 u v) (nearest (magnitude u * magnitude v) oneExponent) := by
  have hzero (s : Sign) : Results (.zero s) (nearest 0 oneExponent) :=
    ⟨trivial, trivial, congrArg (min infinite) (nearest_zero _).symm⟩
  cases u with
  | notANumber => exact hu'.elim
  | infinity s => cases hfinite
  | zero s =>
      rw [show magnitude (.zero s) = 0 from rfl, Nat.zero_mul]
      cases v with
      | notANumber => exact hv'.elim
      | infinity s' => cases hfinite'
      | zero s' => exact hzero _
      | finite s' m' e' hm' => exact hzero _
  | finite s m e hm =>
      obtain rfl : s = .positive := hu'
      cases v with
      | notANumber => exact hv'.elim
      | infinity s' => cases hfinite'
      | zero s' => exact hzero _
      | finite s' m' e' hm' =>
          obtain rfl : s' = .positive := hv'
          exact mul_finite_results hu.1 hv.1

/-- A quotient is taken with enough digits. -/
theorem divCore_digits {m m' : Nat} {e e' t : Int} {k : Nat} (hm : 0 < m) (hm' : 0 < m')
    (ht : t = min (e - e') (max (m.log2 + e - (m'.log2 + e') - 53) (-1074)))
    (hk : k = (e - e' - t).toNat) : 2 ^ 52 ≤ m * 2 ^ k / m' ∨ t ≤ -1074 := by
  by_cases hleast : t ≤ -1074
  · exact .inr hleast
  · refine .inl ?_
    have hlower := Nat.log2_self_le (Nat.ne_of_gt hm)
    have hupper := Nat.lt_log2_self (n := m')
    rw [Nat.le_div_iff_mul_le hm']
    calc 2 ^ 52 * m' ≤ 2 ^ 52 * 2 ^ (m'.log2 + 1) := Nat.mul_le_mul_left _ (Nat.le_of_lt hupper)
      _ = 2 ^ (52 + (m'.log2 + 1)) := (Nat.pow_add ..).symm
      _ ≤ 2 ^ (m.log2 + k) := Nat.pow_le_pow_right (by decide) (by omega)
      _ = 2 ^ m.log2 * 2 ^ k := Nat.pow_add ..
      _ ≤ m * 2 ^ k := Nat.mul_le_mul_right _ hlower

theorem div_finite {m m' : Nat} {e e' : Int} {hm : 0 < m} {hm' : 0 < m'} :
    div Format.binary64 (.finite .positive m e hm) (.finite .positive m' e' hm') =
      roundWithAccuracy Format.binary64 .positive (divCore Format.binary64 m e m' e').1
        (divCore Format.binary64 m e m' e').2.1 (divCore Format.binary64 m e m' e').2.2 :=
  rfl

theorem div_finite_results {m m' : Nat} {e e' : Int} {hm : 0 < m} {hm' : 0 < m'}
    (h : Digits m e) (h' : Digits m' e') :
    Results (div Format.binary64 (.finite .positive m e hm) (.finite .positive m' e' hm'))
      (nearestQuotient (m * 2 ^ (e + 1074).toNat * 2 ^ oneExponent)
        (m' * 2 ^ (e' + 1074).toNat)) := by
  have hleast := h.least_le
  have hleast' := h'.least_le
  have htarget : Format.binary64.targetExponent (totalExponent m e - totalExponent m' e') =
      max (m.log2 + e - (m'.log2 + e') - 53) (-1074) := by
    have hbits : (Format.binary64.mantissaBits : Int) = 53 := rfl
    have hmin : Format.binary64.minExponent = -1074 := rfl
    rw [Format.targetExponent, totalExponent, totalExponent, hbits, hmin]
    omega
  obtain ⟨t, ht⟩ : ∃ t, t = min (e - e') (max (m.log2 + e - (m'.log2 + e') - 53) (-1074)) :=
    ⟨_, rfl⟩
  obtain ⟨k, hk⟩ : ∃ k, k = (e - e' - t).toNat := ⟨_, rfl⟩
  have hdiv : div Format.binary64 (.finite .positive m e hm) (.finite .positive m' e' hm') =
      roundWithAccuracy Format.binary64 .positive (m * 2 ^ k / m') t
        (accuracyOfFraction (m * 2 ^ k % m') m') := by
    rw [div_finite, divCore, htarget, ← ht, ← hk, Nat.shiftLeft_eq]
  have hspec := roundWithAccuracy_quotient .positive (b := m * 2 ^ k) (d := m')
    (a := (e + 1074).toNat + oneExponent) (n := (e' + 1074).toNat + k) hm'
    (by unfold oneExponent; omega) (divCore_digits hm hm' ht hk)
  have hnum : m * 2 ^ k * 2 ^ ((e + 1074).toNat + oneExponent) =
      m * 2 ^ (e + 1074).toNat * 2 ^ oneExponent * 2 ^ k := by
    rw [Nat.mul_right_comm, Nat.pow_add, ← Nat.mul_assoc m]
  rw [hnum, Nat.pow_add _ _ k, ← Nat.mul_assoc m', nearestQuotient_scale (Nat.two_pow_pos k)]
    at hspec
  rw [hdiv]
  exact ⟨hspec.1, nonneg_roundWithAccuracy _ _ _, congrArg (min infinite) hspec.2⟩

/-- The magnitude of a quotient of finite numbers is the one nearest to the quotient of the
    magnitudes, if the divisor is not zero. -/
theorem div_results {u v : UnpackedFloat} (hu : Storable u) (hv : Storable v) (hu' : Nonneg u)
    (hv' : Nonneg v) (hfinite : u.isFinite = true) (hfinite' : v.isFinite = true)
    (hpos : 0 < magnitude v) :
    Results (div Format.binary64 u v)
      (nearestQuotient (magnitude u * 2 ^ oneExponent) (magnitude v)) := by
  cases v with
  | notANumber => exact hv'.elim
  | infinity s' => cases hfinite'
  | zero s' => cases hpos
  | finite s' m' e' hm' =>
      obtain rfl : s' = .positive := hv'
      cases u with
      | notANumber => exact hu'.elim
      | infinity s => cases hfinite
      | zero s =>
          refine ⟨trivial, trivial, congrArg (min infinite) ?_⟩
          rw [show magnitude (.zero s) = 0 from rfl, Nat.zero_mul]
          exact (nearestQuotient_zero _).symm
      | finite s m e hm =>
          obtain rfl : s = .positive := hu'
          exact div_finite_results hu.1 hv.1

end PagePress.Double
