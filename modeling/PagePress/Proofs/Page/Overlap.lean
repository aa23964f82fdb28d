/-
  PagePress.Proofs.Page.Overlap

  What the overlap of two texts measures.

  The stretches of a text are all its parts of one length, each listed once
  (`mem_stretches_iff`, `nodup_stretches`).  The overlap of two collections of
  different texts is the number of the texts in both, divided by the number of
  the texts in either (`overlap_eq_ratio`).  So it lies between 0 and 1, it is 1
  only for equal collections, and 0 only for disjoint ones.
-/

import Mathlib.Data.Finset.Card
import Mathlib.Data.Finset.Disjoint
import Mathlib.Data.List.Dedup
import PagePress.Proofs.Page.Ratio

namespace PagePress

theorem Text.distinct_eq_dedup {α : Type} [DecidableEq α] (xs : List α) :
    distinct xs = xs.dedup := by
  induction xs with
  | nil => rfl
  | cons x xs ih => rw [distinct, List.dedup_cons, ih]

namespace Page

open Double

/-! ## Stretches -/

section

variable {size : Nat} {w t : Text}

/-- The windows of a text are its parts of one length. -/
theorem mem_windows_iff (h : size ≠ 0) : w ∈ windows size t ↔ w <:+: t ∧ w.length = size := by
  induction t with
  | nil =>
      refine iff_of_false List.not_mem_nil fun hpart => h ?_
      rw [← hpart.2, List.infix_nil.1 hpart.1, List.length_nil]
  | cons c cs ih =>
      rw [windows]
      split
      · next hshort =>
          refine iff_of_false List.not_mem_nil fun hpart => ?_
          exact Nat.not_lt_of_le (hpart.2 ▸ hpart.1.length_le) hshort
      · next hlong =>
          -- a part that stands in front is the first window, any other one comes later
          have hfirst : w = (c :: cs).take size ↔ w <+: c :: cs ∧ w.length = size := by
            constructor
            · rintro rfl
              exact ⟨List.take_prefix _ _, List.length_take_of_le (Nat.le_of_not_lt hlong)⟩
            · rintro ⟨hfront, rfl⟩
              exact List.prefix_iff_eq_take.1 hfront
          rw [List.mem_cons, ih, hfirst, List.infix_cons_iff, or_and_right]

theorem mem_stretches_iff (h : size ≠ 0) :
    w ∈ stretches size t ↔ w <:+: t ∧ w.length = size := by
  rw [stretches, if_neg h, Text.distinct_eq_dedup, List.mem_dedup, mem_windows_iff h]

theorem nodup_stretches (size : Nat) (t : Text) : (stretches size t).Nodup := by
  rw [stretches]
  split
  · exact List.nodup_nil
  · rw [Text.distinct_eq_dedup]
    exact List.nodup_dedup _

/-- A text that is long enough for one stretch has one. -/
theorem stretches_ne_nil (h : size ≠ 0) (hlong : size ≤ t.length) : stretches size t ≠ [] :=
  List.ne_nil_of_mem
    ((mem_stretches_iff h).2 ⟨(List.take_prefix size t).isInfix, List.length_take_of_le hlong⟩)

end

/-! ## Overlap -/

section

variable {a b : List Text}

theorem overlap_eq_ratio (ha : a.Nodup) (hb : b.Nodup) :
    overlap a b = ratio (a.toFinset ∩ b.toFinset).card (a.toFinset ∪ b.toFinset).card := by
  have hcommon : (a.filter fun x => decide (x ∈ b)).length = (a.toFinset ∩ b.toFinset).card := by
    rw [← List.toFinset_card_of_nodup (ha.filter _), List.toFinset_filter]
    congr 1
    ext x
    simp only [Finset.mem_filter, Finset.mem_inter, List.mem_toFinset, decide_eq_true_eq]
  have hsum := Finset.card_union_add_card_inter a.toFinset b.toFinset
  rw [List.toFinset_card_of_nodup ha, List.toFinset_card_of_nodup hb] at hsum
  rw [overlap, hcommon, ← hsum, Nat.add_sub_cancel]

theorem overlap_comm (ha : a.Nodup) (hb : b.Nodup) : overlap a b = overlap b a := by
  rw [overlap_eq_ratio ha hb, overlap_eq_ratio hb ha, Finset.inter_comm, Finset.union_comm]

theorem overlap_atMost_one (ha : a.Nodup) (hb : b.Nodup) : AtMost (overlap a b) 1.0 := by
  rw [overlap_eq_ratio ha hb]
  exact ratio_atMost_one (Finset.card_le_card Finset.inter_subset_union)

theorem overlap_self (ha : a.Nodup) (hne : a ≠ []) : overlap a a = 1.0 := by
  rw [overlap_eq_ratio ha ha, Finset.inter_self, Finset.union_self]
  exact ratio_self (mt Finset.card_eq_zero.1 (mt (List.toFinset_eq_empty_iff a).1 hne))

/-- A text in one of the collections alone is not lost in the rounding. -/
theorem overlap_eq_one_iff (ha : a.Nodup) (hb : b.Nodup) (hlen : a.length < 2 ^ 53) :
    overlap a b = 1.0 ↔ (∀ x, x ∈ a ↔ x ∈ b) ∧ a ≠ [] := by
  have hsubset : a.toFinset ∩ b.toFinset ⊆ a.toFinset ∪ b.toFinset := Finset.inter_subset_union
  have hcommon : (a.toFinset ∩ b.toFinset).card < 2 ^ 53 := by
    refine Nat.lt_of_le_of_lt (Finset.card_le_card Finset.inter_subset_left) ?_
    rwa [List.toFinset_card_of_nodup ha]
  rw [overlap_eq_ratio ha hb]
  constructor
  · intro hone
    -- what is common to both is all that is in either, as the count is small enough
    obtain ⟨hcard, hne⟩ := (ratio_eq_one_iff (Finset.card_le_card hsubset) hcommon).1 hone
    have hequal : a.toFinset = b.toFinset :=
      inf_eq_sup.1 (Finset.eq_of_subset_of_card_le hsubset (Nat.le_of_eq hcard.symm))
    refine ⟨fun x => ?_, ?_⟩
    · rw [← List.mem_toFinset, hequal, List.mem_toFinset]
    · rintro rfl
      rw [← hequal] at hne
      exact hne rfl
  · rintro ⟨hsame, hne⟩
    rw [← List.toFinset.ext hsame, ← overlap_eq_ratio ha ha, overlap_self ha hne]

theorem overlap_eq_zero_iff (ha : a.Nodup) (hb : b.Nodup) :
    overlap a b = 0.0 ↔ ∀ x ∈ a, x ∉ b := by
  -- empty collections are no case of their own: nothing is common to them
  have hnone : (a.toFinset ∪ b.toFinset) = ∅ → a.toFinset ∩ b.toFinset = ∅ := fun hunion =>
    Finset.subset_empty.1 (hunion ▸ Finset.inter_subset_union)
  rw [overlap_eq_ratio ha hb, ratio_eq_zero_iff, Finset.card_eq_zero, Finset.card_eq_zero,
    or_iff_left_of_imp hnone, ← Finset.disjoint_iff_inter_eq_empty,
    List.disjoint_toFinset_iff_disjoint]
  exact ⟨fun h x => @h x, fun h x => h x⟩

end

end Page

end PagePress
