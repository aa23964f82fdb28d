/-
  PagePress.Proofs.Page.Ratio

  Ratios of counts.

  A count up to 2 ^ 53 is a double of exactly its size, and a larger one is not
  rounded to less than that.  So the ratio of a count below 2 ^ 53 and the
  count of a whole is one only if nothing is missing (`ratio_eq_one_iff`), and
  a ratio is zero only if there is nothing at all (`ratio_eq_zero_iff`).
-/

import Mathlib.Tactic.ByContra
import PagePress.Page.Measure
import PagePress.Proofs.Double.Quotient

namespace PagePress.Page

open Double

/-! ## Counts -/

theorem toNat_ofNatClamp (n : Nat) : (UInt64.ofNatClamp n).toNat = min n (UInt64.size - 1) := by
  rw [UInt64.ofNatClamp]
  split
  · next hlt => rw [UInt64.toNat_ofNatLT, Nat.min_eq_left (Nat.le_sub_one_of_lt hlt)]
  · next hge => rw [UInt64.toNat_ofNatLT, Nat.min_eq_right (by omega)]

theorem ofNatClamp_ne_zero {n : Nat} (h : n ≠ 0) : UInt64.ofNatClamp n ≠ 0 := by
  intro hzero
  have hcount := toNat_ofNatClamp n
  rw [hzero, UInt64.toNat_zero] at hcount
  have hsize : 1 < UInt64.size := by decide
  omega

theorem ofCount_nonneg (n : Nat) : 0.0 ≤ ofCount n := (toFloat_spec _).1

theorem ofCount_finite (n : Nat) : (ofCount n).isFinite = true := (toFloat_spec _).2.1

theorem size_ofCount_pos {n : Nat} (h : n ≠ 0) : 0 < size (ofCount n) :=
  (toFloat_spec _).2.2 (ofNatClamp_ne_zero h)

theorem ofCount_atMost {n m : Nat} (h : n ≤ m) : AtMost (ofCount n) (ofCount m) := by
  refine toFloat_atMost ?_
  rw [toNat_ofNatClamp, toNat_ofNatClamp]
  omega

/-- A count with at most 53 digits is a double of exactly this size, and so is the next one. -/
theorem size_ofCount {n : Nat} (h : n ≤ 2 ^ 53) : size (ofCount n) = n * 2 ^ oneExponent := by
  have hcount : (UInt64.ofNatClamp n).toNat = n := by
    rw [toNat_ofNatClamp]
    exact Nat.min_eq_left (Nat.le_trans h (by decide))
  rw [ofCount, (size_toFloat _).2, hcount]
  obtain hlt | rfl := Nat.lt_or_eq_of_le h
  · exact nearest_of_digits hlt oneExponent
  · generalize oneExponent = k
    rw [← Nat.pow_add, ← Nat.one_mul (2 ^ (53 + k))]
    exact nearest_of_digits (by decide) (53 + k)

theorem le_size_ofCount (n : Nat) : min n (2 ^ 53) * 2 ^ oneExponent ≤ size (ofCount n) := by
  rw [← size_ofCount (Nat.min_le_right n _)]
  exact (ofCount_atMost (Nat.min_le_left n _)).size_le

theorem size_ofCount_le (n : Nat) : size (ofCount n) ≤ 2 ^ (64 + oneExponent) := by
  have hexp : 64 + oneExponent = 52 + (12 + oneExponent) := by omega
  have hcount := mul_pow_le (Nat.le_of_lt (UInt64.ofNatClamp n).toNat_lt) oneExponent
  rw [hexp] at hcount
  rw [ofCount, (size_toFloat _).2, hexp]
  exact nearest_le_pow hcount

/-! ## Ratios -/

variable {part part' whole : Nat}

theorem ratio_of_nothing (part : Nat) : ratio part 0 = 0.0 := if_pos rfl

theorem ratio_eq_div (h : whole ≠ 0) : ratio part whole = ofCount part / ofCount whole := if_neg h

theorem ratio_atMost (h : part ≤ part') (whole : Nat) :
    AtMost (ratio part whole) (ratio part' whole) := by
  by_cases hwhole : whole = 0
  · rw [hwhole, ratio_of_nothing, ratio_of_nothing]
    exact .refl zero_nonneg
  · rw [ratio_eq_div hwhole, ratio_eq_div hwhole]
    exact (ofCount_atMost h).div (ofCount_nonneg _) (ofCount_finite _) (ofCount_finite _)
      (size_ofCount_pos hwhole)

theorem ratio_nonneg (part whole : Nat) : 0.0 ≤ ratio part whole :=
  (ratio_atMost (Nat.le_refl part) whole).nonneg

theorem ratio_self (h : whole ≠ 0) : ratio whole whole = 1.0 := by
  rw [ratio_eq_div h, div_self (ofCount_nonneg _) (ofCount_finite _) (size_ofCount_pos h)]

theorem ratio_zero (whole : Nat) : ratio 0 whole = 0.0 := by
  by_cases hwhole : whole = 0
  · rw [hwhole, ratio_of_nothing]
  · rw [ratio_eq_div hwhole, show ofCount 0 = 0.0 from rfl,
      zero_div (ofCount_nonneg _) (ofCount_finite _) (size_ofCount_pos hwhole)]

/-- A part is never more than the whole. -/
theorem ratio_atMost_one (h : part ≤ whole) : AtMost (ratio part whole) 1.0 := by
  by_cases hwhole : whole = 0
  · rw [hwhole, ratio_of_nothing]
    exact ⟨zero_nonneg, one_nonneg, by decide⟩
  · rw [← ratio_self hwhole]
    exact ratio_atMost h whole

/-- Rounding does not make a part the whole. -/
theorem size_ratio_lt (h : part < whole) (hpart : part < 2 ^ 53) :
    size (ratio part whole) < size 1.0 := by
  have hwhole : whole ≠ 0 := Nat.ne_of_gt (Nat.zero_lt_of_lt h)
  rw [ratio_eq_div hwhole]
  refine size_div_lt (ofCount_nonneg _) (ofCount_nonneg _) (ofCount_finite _) (ofCount_finite _)
    (size_ofCount_pos hwhole) ?_
  have hshare : part * 2 ^ 53 ≤ (2 ^ 53 - 1) * min whole (2 ^ 53) := by omega
  rw [size_ofCount (Nat.le_of_lt hpart)]
  calc part * 2 ^ oneExponent * 2 ^ 53
      = part * 2 ^ 53 * 2 ^ oneExponent := Nat.mul_right_comm _ _ _
    _ ≤ (2 ^ 53 - 1) * min whole (2 ^ 53) * 2 ^ oneExponent := Nat.mul_le_mul_right _ hshare
    _ = (2 ^ 53 - 1) * (min whole (2 ^ 53) * 2 ^ oneExponent) := Nat.mul_assoc _ _ _
    _ ≤ (2 ^ 53 - 1) * size (ofCount whole) := Nat.mul_le_mul_left _ (le_size_ofCount whole)

/-- Rounding does not make a part nothing. -/
theorem size_ratio_pos (hpart : part ≠ 0) (hwhole : whole ≠ 0) : 0 < size (ratio part whole) := by
  rw [ratio_eq_div hwhole]
  refine size_div_pos (ofCount_nonneg _) (ofCount_nonneg _) (ofCount_finite _) (ofCount_finite _)
    (size_ofCount_pos hwhole) (k := 64) (by decide) ?_
  have hone : 2 ^ oneExponent ≤ size (ofCount part) := by
    have hle := (ofCount_atMost (Nat.one_le_iff_ne_zero.2 hpart)).size_le
    rwa [size_ofCount (by decide), Nat.one_mul] at hle
  calc size (ofCount whole) ≤ 2 ^ (64 + oneExponent) := size_ofCount_le whole
    _ = 2 ^ oneExponent * 2 ^ 64 := by rw [Nat.add_comm, Nat.pow_add]
    _ ≤ size (ofCount part) * 2 ^ 64 := Nat.mul_le_mul_right _ hone

theorem ratio_eq_one_iff (h : part ≤ whole) (hpart : part < 2 ^ 53) :
    ratio part whole = 1.0 ↔ part = whole ∧ whole ≠ 0 := by
  constructor
  · intro hone
    have hwhole : whole ≠ 0 := by
      rintro rfl
      rw [ratio_of_nothing] at hone
      exact absurd hone (by decide)
    refine ⟨Nat.le_antisymm h (Nat.le_of_not_lt fun hlt => ?_), hwhole⟩
    exact Nat.lt_irrefl _ (hone ▸ size_ratio_lt hlt hpart)
  · rintro ⟨rfl, hwhole⟩
    exact ratio_self hwhole

theorem ratio_eq_zero_iff : ratio part whole = 0.0 ↔ part = 0 ∨ whole = 0 := by
  constructor
  · intro hzero
    by_contra hne
    rw [not_or] at hne
    have hpos := size_ratio_pos hne.1 hne.2
    rw [hzero] at hpos
    exact Nat.lt_irrefl 0 hpos
  · rintro (rfl | rfl)
    · exact ratio_zero whole
    · exact ratio_of_nothing part

end PagePress.Page
