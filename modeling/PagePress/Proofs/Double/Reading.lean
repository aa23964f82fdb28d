/-
  PagePress.Proofs.Double.Reading

  Doubles as they are written.

  Taking a double apart by its bits gives its sign, digits and exponent
  (`read_eq`).  A count below a limit is a double of exactly this size, so it
  is written with its decimal digits (`Value.numberText_ofNat`).
-/

import PagePress.Proofs.Double.Arithmetic
import PagePress.Variable.Value

namespace PagePress.Double

open Decimal (Reading)
open Float.Model (Format UnpackedFloat)
open Float.Model.UnpackedFloat

/-! ## Bits -/

theorem toNat_unpackMantissa (b : BitVec 64) :
    (@unpackMantissa Format.binary64 b).toNat = b.toNat % 2 ^ 52 := rfl

theorem toNat_unpackExponent (b : BitVec 64) :
    (@unpackExponent Format.binary64 b).toNat = b.toNat / 2 ^ 52 % 2 ^ 11 := by
  rw [← Nat.shiftRight_eq_div_pow]
  rfl

theorem toNat_unpackSign (b : BitVec 64) :
    (@unpackSign Format.binary64 b).toNat = b.toNat / 2 ^ 63 % 2 := by
  rw [← Nat.shiftRight_eq_div_pow]
  rfl

def isNegative : Sign → Bool
  | .negative => true
  | .positive => false

theorem isNegative_unpackSign (b : BitVec 64) :
    isNegative (Sign.ofBitVec (@unpackSign Format.binary64 b)) = decide (2 ^ 63 ≤ b.toNat) := by
  have hlt := b.isLt
  have hsign := toNat_unpackSign b
  unfold Sign.ofBitVec
  split
  · next hzero =>
      rw [hzero, BitVec.toNat_ofNat] at hsign
      exact (decide_eq_false (by omega)).symm
  · next hone =>
      have hne : (@unpackSign Format.binary64 b).toNat ≠ 0 := fun h =>
        hone (BitVec.eq_of_toNat_eq h)
      exact (decide_eq_true (by omega)).symm

/-- What a double with some parts stands for. -/
def reading : UnpackedFloat → Reading
  | .notANumber => .nan
  | .infinity s => .infinite (isNegative s)
  | .zero s => .finite (isNegative s) 0 Decimal.leastExponent
  | .finite s m e _ => .finite (isNegative s) m e

theorem reading_ofComponents (s : Sign) (x : BitVec 11) (y : BitVec 52) :
    reading (ofComponents s x y) =
      if x.toNat = 2047 then if y.toNat = 0 then .infinite (isNegative s) else .nan
      else if x.toNat = 0 then .finite (isNegative s) y.toNat Decimal.leastExponent
      else .finite (isNegative s) (2 ^ 52 + y.toNat) ((x.toNat : Int) - 1075) := by
  have hlast : x = -1#11 ↔ x.toNat = 2047 := BitVec.toNat_eq
  have hfirst : x = 0#11 ↔ x.toNat = 0 := BitVec.toNat_eq
  have hnone : y = 0#52 ↔ y.toNat = 0 := BitVec.toNat_eq
  unfold ofComponents
  by_cases hx : x = -1#11
  · rw [if_pos hx, if_pos (hlast.1 hx)]
    by_cases hy : y = 0#52
    · rw [if_pos hy, if_pos (hnone.1 hy)]
      rfl
    · rw [if_neg hy, if_neg (mt hnone.2 hy)]
      rfl
  · rw [if_neg hx, if_neg (mt hlast.2 hx)]
    by_cases hzero : x = 0#11
    · rw [if_pos hzero, if_pos (hfirst.1 hzero)]
      by_cases hy : y.toNat = 0
      · rw [dif_pos hy, hy]
        rfl
      · rw [dif_neg hy]
        rfl
    · rw [if_neg hzero, if_neg (mt hfirst.2 hzero)]
      rfl

theorem reading_unpack (b : BitVec 64) :
    let negative := decide (2 ^ 63 ≤ b.toNat)
    let field : Nat := b.toNat / 2 ^ 52 % 2 ^ 11
    let fraction : Nat := b.toNat % 2 ^ 52
    reading (unpack Format.binary64 b) =
      if field = 2047 then if fraction = 0 then .infinite negative else .nan
      else if field = 0 then .finite negative fraction Decimal.leastExponent
      else .finite negative (2 ^ 52 + fraction) ((field : Int) - 1075) := by
  intro negative field fraction
  have hfraction : (@unpackMantissa Format.binary64 b).toNat = fraction := toNat_unpackMantissa b
  have hfield : (@unpackExponent Format.binary64 b).toNat = field := toNat_unpackExponent b
  have hnegative : isNegative (Sign.ofBitVec (@unpackSign Format.binary64 b)) = negative :=
    isNegative_unpackSign b
  rw [unpack_eq, reading_ofComponents, hnegative, hfield, hfraction]

/-- The bits of a double tell its parts. -/
theorem read_eq (x : Float) : Decimal.read x = reading (parts x) :=
  (reading_unpack x.toModel.toBits.toBitVec).symm

/-! ## Counts -/

/-- A count with at most 53 digits is a double of exactly this size. -/
theorem size_ofNat {n : Nat} (h : n < 2 ^ 53) :
    0.0 ≤ Float.ofNat n ∧ size (Float.ofNat n) = n * 2 ^ oneExponent := by
  have hofNat : Float.ofNat n = n.toUInt64.toFloat * 1.0 := by
    show Float.ofScientific n false 0 = _
    rw [Float.ofScientific, dif_pos ⟨h, Nat.zero_le _⟩]
    rfl
  have hcount : n.toUInt64.toNat = n := Nat.mod_eq_of_lt (Nat.lt_trans h (by decide))
  obtain ⟨hnonneg, hfinite, -⟩ := toFloat_spec n.toUInt64
  rw [hofNat]
  refine ⟨(mul_spec hnonneg one_nonneg hfinite one_finite).1, ?_⟩
  rw [size_mul_one hnonneg hfinite, (size_toFloat _).2, hcount, nearest_of_digits h]

/-- Digits and an exponent that make up a whole number. -/
theorem whole?_eq {m n : Nat} {e : Int} (hleast : -1074 ≤ e)
    (h : m * 2 ^ (e + 1074).toNat = n * 2 ^ oneExponent) (hlimit : n < Value.wholeLimit) :
    Value.whole? m e = some n := by
  have hexp : e.toNat + oneExponent = (e + 1074).toNat + (-e).toNat := by
    unfold oneExponent
    omega
  have hscale : m * 2 ^ e.toNat = n * 2 ^ (-e).toNat := by
    refine Nat.eq_of_mul_eq_mul_right (Nat.two_pow_pos oneExponent) ?_
    calc m * 2 ^ e.toNat * 2 ^ oneExponent
        = m * 2 ^ (e + 1074).toNat * 2 ^ (-e).toNat := by
          rw [Nat.mul_assoc, Nat.mul_assoc, ← Nat.pow_add, ← Nat.pow_add, hexp]
      _ = n * 2 ^ (-e).toNat * 2 ^ oneExponent := by rw [h, Nat.mul_right_comm]
  show (if m * 2 ^ e.toNat % 2 ^ (-e).toNat = 0 ∧
      m * 2 ^ e.toNat / 2 ^ (-e).toNat < Value.wholeLimit then
        some (m * 2 ^ e.toNat / 2 ^ (-e).toNat) else none) = some n
  rw [hscale, Nat.mul_div_cancel n (Nat.two_pow_pos _), if_pos ⟨Nat.mul_mod_left _ _, hlimit⟩]

end PagePress.Double

namespace PagePress.Value

open Double

theorem numberText_of_whole {x : Float} {negative : Bool} {m n : Nat} {e : Int}
    (hread : Decimal.read x = .finite negative m e) (hwhole : whole? m e = some n) :
    numberText x = Text.ofInt (if negative then -n else n) := by
  rw [numberText, hread]
  dsimp only
  rw [hwhole]

/-- A count below the limit is written with its decimal digits. -/
theorem numberText_ofNat {n : Nat} (h : n < wholeLimit) :
    numberText (Float.ofNat n) = Text.ofNat n := by
  have hlimit : wholeLimit < 2 ^ 53 := by decide
  have hdigits : n < 2 ^ 53 := Nat.lt_trans h hlimit
  obtain ⟨hnonneg, hsize⟩ := size_ofNat hdigits
  have hstorable := storable_parts (Float.ofNat n)
  rw [nonneg_iff] at hnonneg
  rw [size] at hsize
  have hread := read_eq (Float.ofNat n)
  cases hparts : parts (Float.ofNat n) with
  | notANumber =>
      rw [hparts] at hnonneg
      exact hnonneg.elim
  | infinity s =>
      have hlt : n * 2 ^ oneExponent < infinite := by
        have hle := mul_pow_le (Nat.le_of_lt hdigits) oneExponent
        exact Nat.lt_of_le_of_lt hle (pow_lt_infinite (by decide))
      rw [hparts] at hsize
      have hinfinite : infinite = n * 2 ^ oneExponent := hsize
      omega
  | zero s =>
      rw [hparts] at hsize
      have hpow : 2 ^ oneExponent ≠ 0 := Nat.ne_of_gt (Nat.two_pow_pos _)
      have hzero : n = 0 := (Nat.mul_eq_zero.1 hsize.symm).resolve_right hpow
      subst hzero
      have hwhole : whole? 0 Decimal.leastExponent = some 0 :=
        whole?_eq (Int.le_refl _) (by rw [Nat.zero_mul, Nat.zero_mul]) h
      rw [hparts] at hread
      rw [numberText_of_whole hread hwhole]
      cases s <;> rfl
  | finite s m e hm =>
      rw [hparts] at hsize hnonneg hstorable hread
      obtain rfl : s = .positive := hnonneg
      rw [numberText_of_whole hread (whole?_eq hstorable.1.least_le hsize h)]
      rfl

end PagePress.Value
