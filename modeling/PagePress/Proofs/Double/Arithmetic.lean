/-
  PagePress.Proofs.Double.Arithmetic

  Order and arithmetic of doubles that are not negative.

  Such doubles are in the order of their sizes (`le_iff`), and the sizes of
  sums, products and quotients follow from the sizes of the operands
  (`add_spec`, `mul_spec`, `div_spec`).  So all three keep the order
  (`AtMost.add`, `AtMost.mul`, `AtMost.div`), and a product with a factor of at
  most one is at most the other factor.
-/

import PagePress.Proofs.Double.Rounding

namespace PagePress.Double

open Float.Model (Format UnpackedFloat)
open Float.Model.UnpackedFloat

/-! ## Order -/

/-- The sign, digits and exponent of a double. -/
def parts (x : Float) : UnpackedFloat := x.toModel.unpack

/-- The size of a double, in units of the least positive one. -/
def size (x : Float) : Nat := magnitude (parts x)

theorem storable_parts (x : Float) : Storable (parts x) := storable_unpack _

theorem size_le (x : Float) : size x ≤ infinite := magnitude_le_infinite (storable_parts x)

theorem le_iff_compare (x y : Float) :
    x ≤ y ↔ ((parts x).compare (parts y)).any (·.isLE) = true := by
  show decide (x.toModel.le y.toModel = true) = true ↔ _
  rw [decide_eq_true_iff]
  rfl

theorem lt_iff_compare (x y : Float) : x < y ↔ (parts x).compare (parts y) = some .lt := by
  show decide (x.toModel.lt y.toModel = true) = true ↔ _
  rw [decide_eq_true_iff]
  exact beq_iff_eq

theorem nonneg_iff (x : Float) : 0.0 ≤ x ↔ Nonneg (parts x) := by
  rw [le_iff_compare, show parts 0.0 = .zero .positive from rfl]
  cases parts x with
  | notANumber => exact iff_of_false nofun id
  | zero s => exact iff_of_true rfl trivial
  | infinity s =>
      cases s with
      | negative => exact iff_of_false nofun nofun
      | positive => exact iff_of_true rfl rfl
  | finite s m e hm =>
      cases s with
      | negative => exact iff_of_false nofun nofun
      | positive => exact iff_of_true rfl rfl

section

variable {x y z : Float}

theorem compare_parts (hx : 0.0 ≤ x) (hy : 0.0 ≤ y) :
    (parts x).compare (parts y) = some (Ord.compare (size x) (size y)) :=
  compare_eq (storable_parts x) (storable_parts y) ((nonneg_iff x).1 hx) ((nonneg_iff y).1 hy)

theorem le_iff (hx : 0.0 ≤ x) (hy : 0.0 ≤ y) : x ≤ y ↔ size x ≤ size y := by
  rw [le_iff_compare, compare_parts hx hy]
  exact Nat.isLE_compare

theorem lt_iff (hx : 0.0 ≤ x) (hy : 0.0 ≤ y) : x < y ↔ size x < size y := by
  rw [lt_iff_compare, compare_parts hx hy, Option.some.injEq, Nat.compare_eq_lt]

theorem not_lt (hx : 0.0 ≤ x) (hy : 0.0 ≤ y) : ¬x < y ↔ y ≤ x := by
  rw [lt_iff hx hy, le_iff hy hx, Nat.not_lt]

/-- A finite double that is not less than zero is at least zero. -/
theorem nonneg_of_finite (hfinite : x.isFinite = true) (hlt : ¬x < 0.0) : 0.0 ≤ x := by
  have hfinite' : (parts x).isFinite = true := hfinite
  rw [lt_iff_compare, show parts 0.0 = .zero .positive from rfl] at hlt
  rw [nonneg_iff]
  cases hx : parts x with
  | notANumber => rw [hx] at hfinite'; cases hfinite'
  | infinity s => rw [hx] at hfinite'; cases hfinite'
  | zero s => trivial
  | finite s m e hm =>
      cases s with
      | negative => exact absurd (by rw [hx]; rfl) hlt
      | positive => rfl

/-- A double that is not negative is finite if its size is. -/
theorem finite_iff (hx : 0.0 ≤ x) : x.isFinite = true ↔ size x < infinite := by
  have hstorable := storable_parts x
  rw [nonneg_iff] at hx
  rw [show x.isFinite = (parts x).isFinite from rfl, size]
  cases hparts : parts x with
  | notANumber => rw [hparts] at hx; exact hx.elim
  | infinity s => exact iff_of_false nofun (Nat.lt_irrefl _)
  | zero s => exact iff_of_true rfl infinite_pos
  | finite s m e hm =>
      rw [hparts] at hstorable
      exact iff_of_true rfl (magnitude_lt_infinite hstorable)

/-! ## Arithmetic -/

/-- The double that stores a result. -/
theorem results_stored {u : UnpackedFloat} {a : Nat} (h : Results u a)
    (hx : parts x = unpack Format.binary64 (pack Format.binary64 u)) :
    0.0 ≤ x ∧ size x = min infinite a := by
  rw [nonneg_iff, size, hx]
  exact ⟨nonneg_unpack_pack h.nonneg, (magnitude_unpack_pack h.canonical).trans h.magnitude_eq⟩

theorem add_spec (hx : 0.0 ≤ x) (hy : 0.0 ≤ y) :
    0.0 ≤ x + y ∧ size (x + y) = min infinite (nearest (size x + size y) 0) :=
  results_stored (add_results (storable_parts x) (storable_parts y) ((nonneg_iff x).1 hx)
    ((nonneg_iff y).1 hy)) rfl

theorem mul_spec (hx : 0.0 ≤ x) (hy : 0.0 ≤ y) (hfinite : x.isFinite = true)
    (hfinite' : y.isFinite = true) :
    0.0 ≤ x * y ∧ size (x * y) = min infinite (nearest (size x * size y) oneExponent) :=
  results_stored (mul_results (storable_parts x) (storable_parts y) ((nonneg_iff x).1 hx)
    ((nonneg_iff y).1 hy) hfinite hfinite') rfl

theorem nearest_size (x : Float) : nearest (size x) 0 = size x :=
  nearest_magnitude (storable_parts x).canonical

theorem size_one : size 1.0 = 2 ^ oneExponent := by
  have hparts : parts 1.0 = .finite .positive (2 ^ 52) (-52) (by decide) := rfl
  have hexp : 52 + ((-52 : Int) + 1074).toNat = oneExponent := rfl
  rw [size, hparts]
  show 2 ^ 52 * 2 ^ ((-52 : Int) + 1074).toNat = _
  rw [← Nat.pow_add, hexp]

theorem zero_nonneg : (0.0 : Float) ≤ 0.0 := by decide

theorem one_nonneg : (0.0 : Float) ≤ 1.0 := by decide

theorem one_finite : (1.0 : Float).isFinite = true := by decide

theorem size_mul_one (hx : 0.0 ≤ x) (hfinite : x.isFinite = true) : size (x * 1.0) = size x := by
  have hscale := nearest_scale (size x) 0 oneExponent
  rw [Nat.zero_add, nearest_size] at hscale
  rw [(mul_spec hx one_nonneg hfinite one_finite).2, size_one, hscale,
    Nat.min_eq_right (size_le x)]

theorem div_spec (hx : 0.0 ≤ x) (hy : 0.0 ≤ y) (hfinite : x.isFinite = true)
    (hfinite' : y.isFinite = true) (hpos : 0 < size y) :
    0.0 ≤ x / y ∧
      size (x / y) = min infinite (nearestQuotient (size x * 2 ^ oneExponent) (size y)) :=
  results_stored (div_results (storable_parts x) (storable_parts y) ((nonneg_iff x).1 hx)
    ((nonneg_iff y).1 hy) hfinite hfinite' hpos) rfl

/-! ## Bounds -/

/-- Two doubles that are not negative, the first one at most the second one. -/
structure AtMost (x y : Float) : Prop where
  nonneg : 0.0 ≤ x
  nonneg_bound : 0.0 ≤ y
  le : x ≤ y

namespace AtMost

theorem size_le (h : AtMost x y) : size x ≤ size y := (le_iff h.nonneg h.nonneg_bound).1 h.le

theorem of_size (hx : 0.0 ≤ x) (hy : 0.0 ≤ y) (hle : size x ≤ size y) : AtMost x y :=
  ⟨hx, hy, (le_iff hx hy).2 hle⟩

theorem refl (hx : 0.0 ≤ x) : AtMost x x := of_size hx hx (Nat.le_refl _)

theorem trans (h : AtMost x y) (h' : AtMost y z) : AtMost x z :=
  of_size h.nonneg h'.nonneg_bound (Nat.le_trans h.size_le h'.size_le)

/-- What is at most a finite double is finite. -/
theorem finite (h : AtMost x y) (hfinite : y.isFinite = true) : x.isFinite = true :=
  (finite_iff h.nonneg).2 (Nat.lt_of_le_of_lt h.size_le ((finite_iff h.nonneg_bound).1 hfinite))

variable {x' y' : Float}

theorem add (h : AtMost x y) (h' : AtMost x' y') : AtMost (x + x') (y + y') := by
  obtain ⟨hsum, hsize⟩ := add_spec h.nonneg h'.nonneg
  obtain ⟨hbound, hsize'⟩ := add_spec h.nonneg_bound h'.nonneg_bound
  have hmono := nearest_mono (Nat.add_le_add h.size_le h'.size_le) 0
  exact of_size hsum hbound (by omega)

theorem mul (h : AtMost x y) (h' : AtMost x' y') (hfinite : y.isFinite = true)
    (hfinite' : y'.isFinite = true) : AtMost (x * x') (y * y') := by
  obtain ⟨hmul, hsize⟩ := mul_spec h.nonneg h'.nonneg (h.finite hfinite) (h'.finite hfinite')
  obtain ⟨hbound, hsize'⟩ := mul_spec h.nonneg_bound h'.nonneg_bound hfinite hfinite'
  have hmono := nearest_mono (Nat.mul_le_mul h.size_le h'.size_le) oneExponent
  exact of_size hmul hbound (by omega)

theorem div {z : Float} (h : AtMost x y) (hz : 0.0 ≤ z) (hfinite : y.isFinite = true)
    (hfinite' : z.isFinite = true) (hpos : 0 < size z) : AtMost (x / z) (y / z) := by
  obtain ⟨hdiv, hsize⟩ := div_spec h.nonneg hz (h.finite hfinite) hfinite' hpos
  obtain ⟨hbound, hsize'⟩ := div_spec h.nonneg_bound hz hfinite hfinite' hpos
  have hmono := nearestQuotient_mono (Nat.mul_le_mul_right (2 ^ oneExponent) h.size_le) (size z)
  exact of_size hdiv hbound (by omega)

/-- What is added makes nothing smaller. -/
theorem add_right (hx : 0.0 ≤ x) (hy : 0.0 ≤ y) : AtMost x (x + y) := by
  obtain ⟨hsum, hsize⟩ := add_spec hx hy
  have hmono := nearest_mono (Nat.le_add_right (size x) (size y)) 0
  rw [nearest_size] at hmono
  have hle := Double.size_le x
  exact of_size hx hsum (by omega)

/-- A product with a factor of at most one is at most the other factor. -/
theorem mul_right (hx : 0.0 ≤ x) (hfinite : x.isFinite = true) (h : AtMost y 1.0) :
    AtMost (x * y) x := by
  have hmul := mul (refl hx) h hfinite one_finite
  have hsize := hmul.size_le
  rw [size_mul_one hx hfinite] at hsize
  exact of_size hmul.nonneg hx hsize

end AtMost

end

/-! ## Counts -/

/-- A count becomes the double that is nearest to it. -/
theorem size_toFloat (n : UInt64) :
    0.0 ≤ n.toFloat ∧ size n.toFloat = nearest (n.toNat * 2 ^ oneExponent) 0 := by
  by_cases hzero : n = 0
  · subst hzero
    have hsize : size (0 : UInt64).toFloat = 0 := rfl
    refine ⟨by decide, ?_⟩
    rw [hsize, UInt64.toNat_zero, Nat.zero_mul, nearest_zero]
  · have hpos : 0 < n.toNat := Nat.pos_of_ne_zero fun h => hzero (UInt64.toNat_inj.1 h)
    have hone : ((0 : Int) + 1074).toNat = oneExponent := rfl
    have hresult := normalize_results hpos (e := 0) (by decide)
    rw [hone] at hresult
    obtain ⟨hnonneg, hsize⟩ := results_stored (x := n.toFloat) hresult rfl
    have hcount := mul_pow_le (Nat.le_of_lt n.toNat_lt) oneExponent
    have hexp : 64 + oneExponent = 52 + (12 + oneExponent) := by omega
    rw [hexp] at hcount
    have hupper := nearest_le_pow hcount
    have hinfinite : 2 ^ (52 + (12 + oneExponent)) < infinite := pow_lt_infinite (by decide)
    rw [Nat.min_eq_right (by omega)] at hsize
    exact ⟨hnonneg, hsize⟩

/-- Counts are in their order as doubles. -/
theorem toFloat_atMost {n m : UInt64} (h : n.toNat ≤ m.toNat) : AtMost n.toFloat m.toFloat := by
  obtain ⟨hn, hsize⟩ := size_toFloat n
  obtain ⟨hm, hsize'⟩ := size_toFloat m
  refine .of_size hn hm ?_
  rw [hsize, hsize']
  exact nearest_mono (Nat.mul_le_mul_right _ h) 0

/-- A count is a finite double, and not zero unless the count is. -/
theorem toFloat_spec (n : UInt64) :
    0.0 ≤ n.toFloat ∧ n.toFloat.isFinite = true ∧ (n ≠ 0 → 0 < size n.toFloat) := by
  have hlargest : (UInt64.ofNat (2 ^ 64 - 1)).toFloat.isFinite = true := by decide
  have hle : n.toNat ≤ (UInt64.ofNat (2 ^ 64 - 1)).toNat := Nat.le_of_lt_succ n.toNat_lt
  refine ⟨(size_toFloat n).1, (toFloat_atMost hle).finite hlargest, fun hzero => ?_⟩
  have hpos : 1 ≤ n.toNat := Nat.pos_of_ne_zero fun h => hzero (UInt64.toNat_inj.1 h)
  have hone : 0 < size (1 : UInt64).toFloat := by
    rw [show (1 : UInt64).toFloat = 1.0 from rfl, size_one]
    exact Nat.two_pow_pos _
  exact Nat.lt_of_lt_of_le hone (toFloat_atMost (n := 1) hpos).size_le

end PagePress.Double
