/-
  PagePress.Proofs.Double.Packing

  Doubles as digits and an exponent.

  A double that is neither zero, infinite nor undefined has at most 53 digits
  above its unit, and all of them unless the unit is the least one
  (`Digits`).  What has such digits is not changed when it is stored, save
  that what is too large becomes infinite.
-/

import PagePress.Proofs.Double.Nearest

namespace PagePress.Double

open Float.Model (UnpackedFloat Format)
open Float.Model.UnpackedFloat

/-! ## Digits -/

/-- Digits and an exponent as a double has them. -/
structure Digits (m : Nat) (e : Int) : Prop where
  lt : m < 2 ^ 53
  least_le : -1074 ≤ e
  normal : 2 ^ 52 ≤ m ∨ e = -1074

/-- The digits of a number are those of a double; its exponent may be too large. -/
def Canonical : UnpackedFloat → Prop
  | .finite _ m e _ => Digits m e
  | _ => True

/-- A number that is stored as it is. -/
def Storable : UnpackedFloat → Prop
  | .finite _ m e _ => Digits m e ∧ e ≤ 971
  | _ => True

theorem Storable.canonical {u : UnpackedFloat} (h : Storable u) : Canonical u := by
  cases u with
  | finite s m e hm => exact h.1
  | _ => trivial

/-! ## Storing and reading -/

theorem toNat_leading (y : BitVec 52) : (1#1 ++ y).toNat = 2 ^ 52 + y.toNat := by
  rw [BitVec.toNat_append, ← Nat.shiftLeft_add_eq_or_of_lt y.isLt]
  rfl

/-- The sign is read as it was stored. -/
theorem sign_components (s : Sign) (x : BitVec 11) (y : BitVec 52) :
    Sign.ofBitVec (unpackSign (packComponents Format.binary64 s x y)) = s := by
  have hbit : unpackSign (packComponents Format.binary64 s x y) = s.toBitVec := by
    apply BitVec.eq_of_getLsbD_eq
    intro i hi
    obtain rfl : i = 0 := by omega
    -- the sign stands above the 52 bits of the digits and the 11 of the exponent
    have hread : (unpackSign (packComponents Format.binary64 s x y)).getLsbD 0 =
        (s.toBitVec ++ x ++ y).getLsbD 63 :=
      BitVec.getLsbD_extractLsb
    rw [hread, BitVec.getLsbD_append, BitVec.getLsbD_append]
    rfl
  rw [hbit]
  cases s <;> rfl

/-- The number with a sign and with the stored forms of an exponent and of digits. -/
def ofComponents (s : Sign) (x : BitVec 11) (y : BitVec 52) : UnpackedFloat :=
  if x = -1#11 then if y = 0#52 then .infinity s else .notANumber
  else if x = 0#11 then
    if h : y.toNat = 0 then .zero s else .finite s y.toNat (-1074) (Nat.pos_of_ne_zero h)
  else .finite s (2 ^ 52 + y.toNat) (x.toNat - 1075) (by omega)

theorem finite_congr {s : Sign} {m m' : Nat} {e e' : Int} {hm : 0 < m} {hm' : 0 < m'}
    (h : m = m') (he : e = e') : UnpackedFloat.finite s m e hm = .finite s m' e' hm' := by
  subst h he
  rfl

/-- What is read from the bits of a double, by its components. -/
theorem unpack_eq (b : BitVec 64) :
    unpack Format.binary64 b = ofComponents (Sign.ofBitVec (@unpackSign Format.binary64 b))
      (@unpackExponent Format.binary64 b) (@unpackMantissa Format.binary64 b) := by
  unfold unpack ofComponents
  by_cases hx : @unpackExponent Format.binary64 b = -1#11
  · exact (if_pos hx).trans (if_pos hx).symm
  · refine (if_neg hx).trans (Eq.trans ?_ (if_neg hx).symm)
    by_cases hzero : @unpackExponent Format.binary64 b = 0#11
    · refine (if_pos hzero).trans (Eq.trans ?_ (if_pos hzero).symm)
      by_cases hy : @unpackMantissa Format.binary64 b = 0#52
      · have hy' : (@unpackMantissa Format.binary64 b).toNat = 0 := congrArg BitVec.toNat hy
        rw [dif_pos hy']
        exact dif_pos hy
      · have hy' : (@unpackMantissa Format.binary64 b).toNat ≠ 0 :=
          fun h => hy (BitVec.eq_of_toNat_eq h)
        rw [dif_neg hy']
        refine (dif_neg hy).trans (finite_congr rfl ?_)
        rw [hzero]
        rfl
    · refine (if_neg hzero).trans (Eq.trans ?_ (if_neg hzero).symm)
      exact finite_congr (toNat_leading _) rfl

/-- What is read from the components of a double. -/
theorem unpack_components (s : Sign) (x : BitVec 11) (y : BitVec 52) :
    unpack Format.binary64 (packComponents Format.binary64 s x y) = ofComponents s x y := by
  rw [unpack_eq, sign_components, unpackExponent_packComponents, unpackMantissa_packComponents]

/-- Components give infinity or no number at all with the last exponent, and else zero or digits
    that need not be rounded. -/
theorem ofComponents_cases {P : UnpackedFloat → Prop} {s : Sign} {x : BitVec 11} {y : BitVec 52}
    (infinity : x = -1#11 → y = 0#52 → P (.infinity s))
    (notANumber : x = -1#11 → y ≠ 0#52 → P .notANumber) (zero : P (.zero s))
    (finite : ∀ m e hm, Digits m e → e ≤ 971 → P (.finite s m e hm)) :
    P (ofComponents s x y) := by
  have hx : x.toNat < 2 ^ 11 := x.isLt
  have hy : y.toNat < 2 ^ 52 := y.isLt
  unfold ofComponents
  by_cases hlast : x = -1#11
  · rw [if_pos hlast]
    by_cases hnone : y = 0#52
    · rw [if_pos hnone]
      exact infinity hlast hnone
    · rw [if_neg hnone]
      exact notANumber hlast hnone
  · rw [if_neg hlast]
    by_cases hleast : x = 0#11
    · rw [if_pos hleast]
      by_cases hnone : y.toNat = 0
      · rw [dif_pos hnone]
        exact zero
      · rw [dif_neg hnone]
        exact finite _ _ _ ⟨Nat.lt_trans hy (by decide), by decide, .inr rfl⟩ (by decide)
    · rw [if_neg hleast]
      have hlast' : x.toNat ≠ 2047 := fun h => hlast (BitVec.eq_of_toNat_eq h)
      have hleast' : x.toNat ≠ 0 := fun h => hleast (BitVec.eq_of_toNat_eq h)
      -- the leading digit is not stored
      apply finite
      · refine ⟨?_, ?_, .inl (Nat.le_add_right _ _)⟩
        · omega
        · omega
      · omega

/-- What is read from a stored double is storable. -/
theorem storable_unpack (b : BitVec 64) : Storable (unpack Format.binary64 b) := by
  rw [unpack_eq]
  exact ofComponents_cases (fun _ _ => trivial) (fun _ _ => trivial) trivial
    fun _ _ _ hdigits hle => ⟨hdigits, hle⟩

/-- The biased exponent of a number. -/
def biased (e : Int) : Nat := (e + 1023 + 52).toNat

theorem pack_finite (s : Sign) (m : Nat) (e : Int) (hm : 0 < m) :
    pack Format.binary64 (.finite s m e hm) =
      if 2 ^ 11 ≤ biased e + 1 then packedInfinity Format.binary64 s
      else if m.log2 + 1 = 53 then
        packComponents Format.binary64 s (BitVec.ofNat 11 (biased e)) (BitVec.ofNat 52 m)
      else packComponents Format.binary64 s 0#11 (BitVec.ofNat 52 m) :=
  rfl

/-- What is storable is read as it was stored. -/
theorem unpack_pack {u : UnpackedFloat} (h : Storable u) :
    unpack Format.binary64 (pack Format.binary64 u) = u := by
  cases u with
  | infinity s => exact unpack_components s (-1#11) 0#52
  | notANumber => rfl
  | zero s => exact unpack_components s 0#11 0#52
  | finite s m e hm =>
      obtain ⟨hdigits, hle⟩ := h
      have hlt := hdigits.lt
      have hleast := hdigits.least_le
      have hbiased : biased e < 2047 ∧ (biased e : Int) = e + 1075 := by
        unfold biased
        omega
      rw [pack_finite, if_neg (by omega)]
      by_cases hnormal : 2 ^ 52 ≤ m
      · have hlog : m.log2 + 1 = 53 := by
          have := (Nat.log2_lt (by omega)).2 hlt
          have := (Nat.le_log2 (by omega)).2 hnormal
          omega
        have hx : (BitVec.ofNat 11 (biased e)).toNat = biased e := by
          rw [BitVec.toNat_ofNat]
          omega
        have hy : (BitVec.ofNat 52 m).toNat = m - 2 ^ 52 := by
          rw [BitVec.toNat_ofNat]
          omega
        have hinf : BitVec.ofNat 11 (biased e) ≠ -1#11 := fun h => by
          have : biased e = 2047 := hx.symm.trans (congrArg BitVec.toNat h)
          omega
        have hzero : BitVec.ofNat 11 (biased e) ≠ 0#11 := fun h => by
          have : biased e = 0 := hx.symm.trans (congrArg BitVec.toNat h)
          omega
        rw [if_pos hlog, unpack_components, ofComponents, if_neg hinf, if_neg hzero]
        apply finite_congr
        · omega
        · omega
      · have hlog : ¬m.log2 + 1 = 53 := by
          have := (Nat.log2_lt (by omega)).2 (Nat.lt_of_not_le hnormal)
          omega
        have hy : (BitVec.ofNat 52 m).toNat = m := by
          rw [BitVec.toNat_ofNat]
          omega
        rw [if_neg hlog, unpack_components, ofComponents, if_neg (by decide), if_pos rfl,
          dif_neg (by omega)]
        have := hdigits.normal.resolve_left hnormal
        apply finite_congr
        · exact hy
        · omega

/-- What is too large becomes infinite. -/
theorem unpack_pack_of_lt {s : Sign} {m : Nat} {e : Int} {hm : 0 < m} (h : 971 < e) :
    unpack Format.binary64 (pack Format.binary64 (.finite s m e hm)) = .infinity s := by
  have hbiased : 2 ^ 11 ≤ biased e + 1 := by
    unfold biased
    omega
  rw [pack_finite, if_pos hbiased]
  exact unpack_components s (-1#11) 0#52

/-! ## Magnitudes -/

/-- Neither negative nor undefined.  Zero has a sign and is not negative with either. -/
def Nonneg : UnpackedFloat → Prop
  | .infinity s => s = .positive
  | .notANumber => False
  | .zero _ => True
  | .finite s _ _ _ => s = .positive

/-- The exponent of the magnitude of one. -/
def oneExponent : Nat := 1074

/-- The exponent of the least unit that is too large. -/
def unitLimit : Nat := 2046

/-- The infinite magnitude: the least one that is too large. -/
def infinite : Nat := 2 ^ 52 * 2 ^ unitLimit

/-- The magnitude of a number. -/
def magnitude : UnpackedFloat → Nat
  | .infinity _ => infinite
  | .notANumber => 0
  | .zero _ => 0
  | .finite _ m e _ => m * 2 ^ (e + 1074).toNat

theorem pow_le_infinite {k : Nat} (h : k ≤ 52 + unitLimit) : 2 ^ k ≤ infinite := by
  rw [infinite, ← Nat.pow_add]
  exact Nat.pow_le_pow_right (by decide) h

theorem pow_lt_infinite {k : Nat} (h : k < 52 + unitLimit) : 2 ^ k < infinite :=
  Nat.lt_of_lt_of_le (Nat.pow_lt_pow_right (by decide) (Nat.lt_succ_self k)) (pow_le_infinite h)

theorem infinite_le_pow {k : Nat} (h : 52 + unitLimit ≤ k) : infinite ≤ 2 ^ k := by
  rw [infinite, ← Nat.pow_add]
  exact Nat.pow_le_pow_right (by decide) h

theorem nonneg_unpack_components {x : BitVec 11} {y : BitVec 52} (h : x = -1#11 → y = 0#52) :
    Nonneg (unpack Format.binary64 (packComponents Format.binary64 .positive x y)) := by
  rw [unpack_components]
  exact ofComponents_cases (fun _ _ => rfl) (fun hx hy => absurd (h hx) hy) trivial
    fun _ _ _ _ _ => rfl

/-- A number that is not negative is not negative when it is stored. -/
theorem nonneg_unpack_pack {u : UnpackedFloat} (h : Nonneg u) :
    Nonneg (unpack Format.binary64 (pack Format.binary64 u)) := by
  cases u with
  | infinity s => rwa [unpack_pack (u := .infinity s) trivial]
  | notANumber => exact h.elim
  | zero s => rwa [unpack_pack (u := .zero s) trivial]
  | finite s m e hm =>
      obtain rfl : s = .positive := h
      rw [pack_finite]
      split
      · exact nonneg_unpack_components fun _ => rfl
      · next hlt =>
          have hx : BitVec.ofNat 11 (biased e) ≠ -1#11 := fun h => by
            have := congrArg BitVec.toNat h
            rw [BitVec.toNat_ofNat] at this
            have : (-1#11).toNat = 2047 := rfl
            omega
          split
          · exact nonneg_unpack_components fun h => absurd h hx
          · exact nonneg_unpack_components fun h => absurd h (by decide)

theorem Digits.magnitude_lt {m : Nat} {e : Int} (h : Digits m e) :
    m * 2 ^ (e + 1074).toNat < 2 ^ (53 + (e + 1074).toNat) := by
  rw [Nat.pow_add]
  exact Nat.mul_lt_mul_of_pos_right h.lt (Nat.two_pow_pos _)

theorem Digits.le_magnitude {m : Nat} {e : Int} (h : Digits m e) (hne : -1074 < e) :
    2 ^ (52 + (e + 1074).toNat) ≤ m * 2 ^ (e + 1074).toNat := by
  rw [Nat.pow_add]
  exact Nat.mul_le_mul_right _ (h.normal.resolve_right (by omega))

theorem magnitude_lt_infinite {s : Sign} {m : Nat} {e : Int} {hm : 0 < m}
    (h : Storable (.finite s m e hm)) : magnitude (.finite s m e hm) < infinite :=
  Nat.lt_of_lt_of_le h.1.magnitude_lt (pow_le_infinite (by have := h.2; unfold unitLimit; omega))

theorem magnitude_le_infinite {u : UnpackedFloat} (h : Storable u) : magnitude u ≤ infinite := by
  cases u with
  | infinity s => exact Nat.le_refl _
  | notANumber => exact Nat.zero_le _
  | zero s => exact Nat.zero_le _
  | finite s m e hm => exact Nat.le_of_lt (magnitude_lt_infinite h)

/-- Storing changes no magnitude but those that are too large. -/
theorem magnitude_unpack_pack {u : UnpackedFloat} (h : Canonical u) :
    magnitude (unpack Format.binary64 (pack Format.binary64 u)) = min infinite (magnitude u) := by
  have hstored (h : Storable u) : magnitude (unpack Format.binary64 (pack Format.binary64 u)) =
      min infinite (magnitude u) := by
    rw [unpack_pack h, Nat.min_eq_right (magnitude_le_infinite h)]
  cases u with
  | finite s m e hm =>
      by_cases he : e ≤ 971
      · exact hstored ⟨h, he⟩
      · have hle : infinite ≤ magnitude (.finite s m e hm) :=
          Nat.le_trans (infinite_le_pow (by unfold unitLimit; omega)) (h.le_magnitude (by omega))
        rw [unpack_pack_of_lt (by omega), Nat.min_eq_left hle]
        rfl
  | _ => exact hstored trivial

/-- The magnitude of a double is one that rounding does not change. -/
theorem nearest_magnitude {u : UnpackedFloat} (h : Canonical u) :
    nearest (magnitude u) 0 = magnitude u := by
  cases u with
  | infinity s => exact nearest_of_digits (by decide) unitLimit
  | notANumber => exact nearest_zero 0
  | zero s => exact nearest_zero 0
  | finite s m e hm => exact nearest_of_digits h.lt (e + 1074).toNat

/-! ## Order -/

theorem Digits.magnitude_lt_of_lt {m m' : Nat} {e e' : Int} (h : Digits m e) (h' : Digits m' e')
    (hlt : e < e') : m * 2 ^ (e + 1074).toNat < m' * 2 ^ (e' + 1074).toNat := by
  have hleast := h.least_le
  calc m * 2 ^ (e + 1074).toNat
      < 2 ^ (53 + (e + 1074).toNat) := h.magnitude_lt
    _ ≤ 2 ^ (52 + (e' + 1074).toNat) := Nat.pow_le_pow_right (by decide) (by omega)
    _ ≤ m' * 2 ^ (e' + 1074).toNat := h'.le_magnitude (by omega)

/-- Digits and exponents compare like magnitudes. -/
theorem Digits.compare_eq {m m' : Nat} {e e' : Int} (h : Digits m e) (h' : Digits m' e') :
    (Ord.compare e e').then (Ord.compare m m') =
      Ord.compare (m * 2 ^ (e + 1074).toNat) (m' * 2 ^ (e' + 1074).toNat) := by
  rcases Int.lt_trichotomy e e' with hlt | rfl | hgt
  · rw [Int.compare_eq_lt.2 hlt, Nat.compare_eq_lt.2 (h.magnitude_lt_of_lt h' hlt)]
    rfl
  · rw [Int.compare_eq_eq.2 rfl]
    have hpos : 0 < 2 ^ (e + 1074).toNat := Nat.two_pow_pos _
    rcases Nat.lt_trichotomy m m' with hlt | rfl | hgt
    · rw [Nat.compare_eq_lt.2 hlt, Nat.compare_eq_lt.2 (Nat.mul_lt_mul_of_pos_right hlt hpos)]
      rfl
    · rw [Nat.compare_eq_eq.2 rfl, Nat.compare_eq_eq.2 rfl]
      rfl
    · rw [Nat.compare_eq_gt.2 hgt, Nat.compare_eq_gt.2 (Nat.mul_lt_mul_of_pos_right hgt hpos)]
      rfl
  · rw [Int.compare_eq_gt.2 hgt, Nat.compare_eq_gt.2 (h'.magnitude_lt_of_lt h hgt)]
    rfl

theorem finite_magnitude_pos {s : Sign} {m : Nat} {e : Int} {hm : 0 < m} :
    0 < magnitude (.finite s m e hm) :=
  Nat.mul_pos hm (Nat.two_pow_pos _)

theorem infinite_pos : 0 < infinite := Nat.mul_pos (Nat.two_pow_pos _) (Nat.two_pow_pos _)

/-- Numbers that are not negative compare like their magnitudes. -/
theorem compare_eq {u v : UnpackedFloat} (hu : Storable u) (hv : Storable v) (hu' : Nonneg u)
    (hv' : Nonneg v) : u.compare v = some (Ord.compare (magnitude u) (magnitude v)) := by
  cases u with
  | notANumber => exact hu'.elim
  | infinity s =>
      obtain rfl : s = .positive := hu'
      cases v with
      | notANumber => exact hv'.elim
      | infinity s' =>
          obtain rfl : s' = .positive := hv'
          exact congrArg some (Nat.compare_eq_eq.2 rfl).symm
      | zero s' => exact congrArg some (Nat.compare_eq_gt.2 infinite_pos).symm
      | finite s' m' e' hm' =>
          exact congrArg some (Nat.compare_eq_gt.2 (magnitude_lt_infinite hv)).symm
  | zero s =>
      cases v with
      | notANumber => exact hv'.elim
      | infinity s' =>
          obtain rfl : s' = .positive := hv'
          exact congrArg some (Nat.compare_eq_lt.2 infinite_pos).symm
      | zero s' => rfl
      | finite s' m' e' hm' =>
          obtain rfl : s' = .positive := hv'
          exact congrArg some (Nat.compare_eq_lt.2 finite_magnitude_pos).symm
  | finite s m e hm =>
      obtain rfl : s = .positive := hu'
      cases v with
      | notANumber => exact hv'.elim
      | infinity s' =>
          obtain rfl : s' = .positive := hv'
          exact congrArg some (Nat.compare_eq_lt.2 (magnitude_lt_infinite hu)).symm
      | zero s' => exact congrArg some (Nat.compare_eq_gt.2 finite_magnitude_pos).symm
      | finite s' m' e' hm' =>
          obtain rfl : s' = .positive := hv'
          exact congrArg some (hu.1.compare_eq hv.1)

end PagePress.Double
