/-
  PagePress.Proofs.Double.Quotient

  Quotients of doubles near zero and one.

  A double that is greater than zero is told by its size (`eq_of_size`).  So
  the quotient of a number and itself is one exactly.  Rounding does not reach
  one from a quotient that is below it by one part in 2 ^ 53
  (`size_div_lt`), nor zero from one that is not extremely small
  (`size_div_pos`).
-/

import PagePress.Proofs.Double.Reading

namespace PagePress.Double

open Decimal (Reading)
open Float.Model (Format UnpackedFloat)
open Float.Model.UnpackedFloat

/-! ## Equality -/

/-- The bits of a double that stands for something, as a number. -/
def bitsOf : Reading → Nat
  | .nan => 0
  | .infinite negative => (if negative then 2 ^ 63 else 0) + 2047 * 2 ^ 52
  | .finite negative m e =>
    (if negative then 2 ^ 63 else 0) + if m < 2 ^ 52 then m else (e + 1074).toNat * 2 ^ 52 + m

theorem bitsOf_read {x : Float} (h : Decimal.read x ≠ .nan) :
    bitsOf (Decimal.read x) = x.toBits.toNat := by
  have hlt := x.toBits.toNat_lt
  unfold Decimal.read at h ⊢
  unfold Decimal.leastExponent at h ⊢
  simp only [Nat.pow_eq] at h ⊢
  generalize x.toBits.toNat = b at *
  split
  · next hlast =>
      split
      · simp only [bitsOf, decide_eq_true_iff]
        split <;> omega
      · next hfraction =>
          rw [if_pos hlast, if_neg hfraction] at h
          exact absurd rfl h
  · split
    · rw [bitsOf, if_pos (Nat.mod_lt b (Nat.two_pow_pos 52))]
      simp only [decide_eq_true_iff]
      split <;> omega
    · rw [bitsOf, if_neg (Nat.not_lt.2 (Nat.le_add_right _ _))]
      simp only [decide_eq_true_iff]
      split <;> omega

variable {x y : Float}

theorem eq_of_toBits (h : x.toBits.toNat = y.toBits.toNat) : x = y := by
  obtain ⟨⟨b, hb⟩⟩ := x
  obtain ⟨⟨b', hb'⟩⟩ := y
  obtain rfl : b = b' := UInt64.toNat_inj.1 h
  rfl

/-- A number is told by its parts. -/
theorem eq_of_parts (h : parts x = parts y) (hnan : parts x ≠ .notANumber) : x = y := by
  have hx : Decimal.read x ≠ .nan := by
    rw [read_eq]
    cases hparts : parts x with
    | notANumber => exact absurd hparts hnan
    | _ => exact Reading.noConfusion
  have hread : Decimal.read x = Decimal.read y := by rw [read_eq, read_eq, h]
  exact eq_of_toBits (by rw [← bitsOf_read hx, ← bitsOf_read (hread ▸ hx), hread])

/-- Digits and an exponent are told by the magnitude. -/
theorem Digits.eq_of_magnitude {m m' : Nat} {e e' : Int} (h : Digits m e) (h' : Digits m' e')
    (heq : m * 2 ^ (e + 1074).toNat = m' * 2 ^ (e' + 1074).toNat) : m = m' ∧ e = e' := by
  rcases Int.lt_trichotomy e e' with hlt | rfl | hgt
  · exact absurd heq (Nat.ne_of_lt (h.magnitude_lt_of_lt h' hlt))
  · exact ⟨Nat.eq_of_mul_eq_mul_right (Nat.two_pow_pos _) heq, rfl⟩
  · exact absurd heq (Nat.ne_of_gt (h'.magnitude_lt_of_lt h hgt))

theorem eq_of_magnitude {u v : UnpackedFloat} (hu : Storable u) (hv : Storable v) (hu' : Nonneg u)
    (hv' : Nonneg v) (hpos : 0 < magnitude u) (h : magnitude u = magnitude v) : u = v := by
  rw [h] at hpos
  cases u with
  | notANumber => exact hu'.elim
  | zero s => exact absurd h (Nat.ne_of_lt hpos)
  | infinity s =>
      obtain rfl : s = .positive := hu'
      cases v with
      | notANumber => exact hv'.elim
      | zero s' => exact absurd hpos (Nat.lt_irrefl 0)
      | infinity s' =>
          obtain rfl : s' = .positive := hv'
          rfl
      | finite s' m' e' hm' => exact absurd h (Nat.ne_of_gt (magnitude_lt_infinite hv))
  | finite s m e hm =>
      obtain rfl : s = .positive := hu'
      cases v with
      | notANumber => exact hv'.elim
      | zero s' => exact absurd hpos (Nat.lt_irrefl 0)
      | infinity s' => exact absurd h (Nat.ne_of_lt (magnitude_lt_infinite hu))
      | finite s' m' e' hm' =>
          obtain rfl : s' = .positive := hv'
          obtain ⟨rfl, rfl⟩ := hu.1.eq_of_magnitude hv.1 h
          rfl

/-- A double that is greater than zero is told by its size. -/
theorem eq_of_size (hx : 0.0 ≤ x) (hy : 0.0 ≤ y) (hpos : 0 < size x) (h : size x = size y) :
    x = y := by
  rw [nonneg_iff] at hx hy
  refine eq_of_parts (eq_of_magnitude (storable_parts x) (storable_parts y) hx hy hpos h) ?_
  intro hnan
  rw [hnan] at hx
  exact hx

theorem AtMost.not_lt_iff (h : AtMost x y) (hpos : 0 < size y) : ¬x < y ↔ x = y := by
  rw [Double.not_lt h.nonneg h.nonneg_bound]
  constructor
  · intro hle
    have hsize := Nat.le_antisymm h.size_le ((le_iff h.nonneg_bound h.nonneg).1 hle)
    exact eq_of_size h.nonneg h.nonneg_bound (hsize ▸ hpos) hsize
  · rintro rfl
    exact h.le

/-! ## Quotients -/

/-- A quotient that comes out even, with at most 53 digits, is not rounded. -/
theorem nearestQuotient_mul {m : Nat} (hlt : m < 2 ^ 53) (u : Nat) {d : Nat} (hpos : 0 < d) :
    nearestQuotient (m * 2 ^ u * d) d = m * 2 ^ u := by
  have hscale := nearestQuotient_scale hpos (m * 2 ^ u) 1
  rw [Nat.one_mul] at hscale
  have hnearest := nearest_of_digits hlt u
  rw [nearest_eq, Nat.pow_zero] at hnearest
  rw [hscale, hnearest]

section

variable (hx : 0.0 ≤ x) (hy : 0.0 ≤ y) (hfinite : x.isFinite = true) (hfinite' : y.isFinite = true)
  (hpos : 0 < size y)

include hx hy hfinite hfinite' hpos

theorem size_div_lt (h : size x * 2 ^ 53 ≤ (2 ^ 53 - 1) * size y) : size (x / y) < size 1.0 := by
  obtain ⟨k, hk⟩ : ∃ k, oneExponent = 53 + k := ⟨1021, rfl⟩
  have hexp : 2 ^ oneExponent = 2 ^ 53 * 2 ^ k := by rw [hk, Nat.pow_add]
  have hbound : size x * 2 ^ oneExponent ≤ (2 ^ 53 - 1) * 2 ^ k * size y := by
    rw [hexp, ← Nat.mul_assoc, Nat.mul_right_comm (2 ^ 53 - 1)]
    exact Nat.mul_le_mul_right _ h
  -- the largest double below one is no smaller than the quotient
  have hle := nearestQuotient_mono hbound (size y)
  rw [nearestQuotient_mul (by decide) k hpos] at hle
  rw [(div_spec hx hy hfinite hfinite' hpos).2, size_one]
  calc min infinite (nearestQuotient (size x * 2 ^ oneExponent) (size y))
      ≤ (2 ^ 53 - 1) * 2 ^ k := Nat.le_trans (Nat.min_le_right _ _) hle
    _ < 2 ^ 53 * 2 ^ k := Nat.mul_lt_mul_of_pos_right (by decide) (Nat.two_pow_pos k)
    _ = 2 ^ oneExponent := hexp.symm

theorem size_div_pos {k : Nat} (hk : k ≤ oneExponent) (h : size y ≤ size x * 2 ^ k) :
    0 < size (x / y) := by
  obtain ⟨j, hj⟩ := Nat.exists_eq_add_of_le hk
  have hbound : 1 * 2 ^ j * size y ≤ size x * 2 ^ oneExponent := by
    rw [hj, Nat.pow_add, ← Nat.mul_assoc, Nat.one_mul, Nat.mul_comm]
    exact Nat.mul_le_mul_right _ h
  have hle := nearestQuotient_mono hbound (size y)
  rw [nearestQuotient_mul (by decide) j hpos, Nat.one_mul] at hle
  rw [(div_spec hx hy hfinite hfinite' hpos).2]
  exact Nat.lt_min.2 ⟨infinite_pos, Nat.lt_of_lt_of_le (Nat.two_pow_pos _) hle⟩

end

theorem div_self (hx : 0.0 ≤ x) (hfinite : x.isFinite = true) (hpos : 0 < size x) :
    x / x = 1.0 := by
  obtain ⟨hnonneg, hsize⟩ := div_spec hx hx hfinite hfinite hpos
  have hself := nearestQuotient_mul (by decide) oneExponent hpos (m := 1)
  rw [Nat.one_mul, Nat.mul_comm] at hself
  have hlt : 2 ^ oneExponent < infinite := pow_lt_infinite (by decide)
  rw [hself, Nat.min_eq_right (Nat.le_of_lt hlt), ← size_one] at hsize
  have hone : 0 < size 1.0 := by
    rw [size_one]
    exact Nat.two_pow_pos _
  exact eq_of_size hnonneg one_nonneg (Nat.lt_of_lt_of_eq hone hsize.symm) hsize

theorem zero_div (hy : 0.0 ≤ y) (hfinite : y.isFinite = true) (hpos : 0 < size y) :
    0.0 / y = 0.0 := by
  have hquotient : div Format.binary64 (.zero .positive) (parts y) = .zero .positive := by
    have hfinite' : (parts y).isFinite = true := hfinite
    rw [nonneg_iff] at hy
    rw [size] at hpos
    cases hparts : parts y with
    | notANumber => rw [hparts] at hy; exact hy.elim
    | infinity s => rw [hparts] at hfinite'; cases hfinite'
    | zero s => rw [hparts] at hpos; exact absurd hpos (Nat.lt_irrefl 0)
    | finite s m e hm =>
        rw [hparts] at hy
        obtain rfl : s = .positive := hy
        rfl
  show Float.ofModel (.pack (div Format.binary64 (.zero .positive) (parts y))) = 0.0
  rw [hquotient]
  rfl

end PagePress.Double
