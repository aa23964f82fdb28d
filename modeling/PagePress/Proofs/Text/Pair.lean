/-
  PagePress.Proofs.Text.Pair

  Characters that stand twice in a row.

  `Text.cutAtPair` cuts a text at the first place where a character stands
  twice (`cutAtPair_eq_some_iff`), and there is none exactly if the character
  is unpaired (`cutAtPair_eq_none_iff`).
-/

import Mathlib.Data.List.Chain
import PagePress.Text.Basic

namespace PagePress.Text

variable {pair : Char} {s t before after : Text}

/-! ## Unpaired characters -/

/-- The character does not stand twice in a row. -/
def Unpaired (pair : Char) (t : Text) : Prop := t.IsChain fun a b => ¬ (a = pair ∧ b = pair)

instance (pair : Char) (t : Text) : Decidable (Unpaired pair t) :=
  inferInstanceAs (Decidable (t.IsChain fun a b => ¬ (a = pair ∧ b = pair)))

theorem unpaired_iff : Unpaired pair t ↔ ¬ [pair, pair] <:+: t := by
  constructor
  · intro h hi
    have hpair := List.IsChain.infix h hi
    exact List.isChain_pair.1 hpair ⟨rfl, rfl⟩
  · intro h
    refine (List.isChain_isInfix t).imp ?_
    rintro a b hi ⟨rfl, rfl⟩
    exact h hi

theorem unpaired_cons {c : Char} :
    Unpaired pair (c :: t) ↔ (c = pair → t.head? ≠ some pair) ∧ Unpaired pair t := by
  rw [Unpaired, List.isChain_cons]
  refine and_congr_left fun _ => ⟨fun h hc hd => h pair hd ⟨hc, rfl⟩, ?_⟩
  rintro h d hd ⟨hc, rfl⟩
  exact h hc hd

theorem unpaired_append :
    Unpaired pair (s ++ t) ↔
      Unpaired pair s ∧ Unpaired pair t ∧ (s.getLast? = some pair → t.head? ≠ some pair) := by
  rw [Unpaired, List.isChain_append]
  refine and_congr_right fun _ => and_congr_right fun _ =>
    ⟨fun h hs ht => h pair hs pair ht ⟨rfl, rfl⟩, ?_⟩
  rintro h a ha b hb ⟨rfl, rfl⟩
  exact h ha hb

theorem unpaired_of_not_mem (h : pair ∉ t) : Unpaired pair t :=
  unpaired_iff.2 fun hi => h (hi.subset List.mem_cons_self)

/-! ## The first pair -/

theorem cutAtPair_cons_cons {a b : Char} (h : ¬ (a = pair ∧ b = pair)) (t : Text) :
    cutAtPair pair (a :: b :: t) =
      (cutAtPair pair (b :: t)).map fun (before, after) => (a :: before, after) := by
  rw [cutAtPair, if_neg h]

theorem cutAtPair_eq_none_iff : cutAtPair pair t = none ↔ Unpaired pair t := by
  fun_induction cutAtPair pair t with
  | case1 a b t hab => simp [unpaired_cons, hab.1, hab.2]
  | case2 a b t hab ih =>
      rw [Option.map_eq_none_iff, ih, unpaired_cons (c := a)]
      simp only [List.head?_cons, ne_eq, Option.some.injEq, ← not_and, hab, not_false_eq_true,
        true_and]
  | case3 t ht =>
      -- a text of at most one character
      cases t with
      | nil => simp [Unpaired]
      | cons a t =>
          cases t with
          | nil => simp [Unpaired]
          | cons b t => exact absurd rfl (ht a b t)

theorem cutAtPair_eq_none (h : pair ∉ t) : cutAtPair pair t = none :=
  cutAtPair_eq_none_iff.2 (unpaired_of_not_mem h)

/-- A text is cut where a pair stands and none before it, not even one that reaches into it. -/
theorem cutAtPair_eq_some_iff :
    cutAtPair pair t = some (before, after) ↔
      t = before ++ pair :: pair :: after ∧ Unpaired pair (before ++ [pair]) := by
  constructor
  · intro h
    refine ⟨cutAtPair_eq h, ?_⟩
    fun_induction cutAtPair pair t generalizing before after with
    | case1 a b t hab =>
        obtain ⟨rfl, -⟩ := Prod.mk.inj (Option.some.inj h)
        simp [Unpaired]
    | case2 a b t hab ih =>
        obtain ⟨⟨u, v⟩, huv, hp⟩ := Option.map_eq_some_iff.1 h
        obtain ⟨rfl, rfl⟩ := Prod.mk.inj hp
        -- what comes after the first character starts as the whole text does there
        have hhead : (u ++ [pair]).head? = some b := by
          have heq := congrArg List.head? (cutAtPair_eq huv)
          cases u <;> exact heq.symm
        rw [List.cons_append, unpaired_cons, hhead]
        exact ⟨fun ha hb => hab ⟨ha, Option.some.inj hb⟩, ih huv⟩
    | case3 => simp at h
  · rintro ⟨rfl, h⟩
    induction before with
    | nil => exact if_pos ⟨rfl, rfl⟩
    | cons a before ih =>
        obtain ⟨hhead, htail⟩ := unpaired_cons.1 h
        have hcut := ih htail
        cases before with
        | nil =>
            have ha : ¬ (a = pair ∧ pair = pair) := fun hab => hhead hab.1 rfl
            rw [List.nil_append] at hcut
            rw [List.cons_append, List.nil_append, cutAtPair_cons_cons ha, hcut]
            rfl
        | cons b before =>
            have ha : ¬ (a = pair ∧ b = pair) := fun hab => hhead hab.1 (congrArg some hab.2)
            rw [List.cons_append, List.cons_append, cutAtPair_cons_cons ha, ← List.cons_append,
              hcut]
            rfl

/-- Every pair of a text stands at the first one or behind it. -/
theorem append_of_cutAtPair {x u : Text}
    (h : cutAtPair pair (x ++ pair :: pair :: u) = some (before, after)) :
    ∃ y, x = before ++ y ∧ pair :: pair :: after = y ++ pair :: pair :: u := by
  obtain ⟨heq, hbefore⟩ := cutAtPair_eq_some_iff.1 h
  rcases List.append_eq_append_iff.1 heq with ⟨y, rfl, hy⟩ | ⟨y, rfl, hy⟩
  · rcases y with _ | ⟨d, y⟩
    · exact ⟨[], by simp, hy.symm⟩
    · -- a pair that starts before the first one
      refine absurd hbefore ?_
      obtain ⟨rfl, hy₁⟩ := List.cons.inj hy
      rw [unpaired_iff, not_not]
      rcases y with _ | ⟨e, y⟩
      · exact ⟨x, [], by simp⟩
      · obtain ⟨rfl, -⟩ := List.cons.inj hy₁
        exact ⟨x, y ++ [pair], by simp⟩
  · exact ⟨y, rfl, hy⟩

/-- Text without a pair, not even one that reaches into what follows, is passed over. -/
theorem cutAtPair_append (h : Unpaired pair s) (hlast : s.getLast? ≠ some pair) (t : Text) :
    cutAtPair pair (s ++ t) =
      (cutAtPair pair t).map fun (before, after) => (s ++ before, after) := by
  cases hcut : cutAtPair pair t with
  | none =>
      rw [cutAtPair_eq_none_iff] at hcut
      exact cutAtPair_eq_none_iff.2 (unpaired_append.2 ⟨h, hcut, fun hl => absurd hl hlast⟩)
  | some p =>
      obtain ⟨before, after⟩ := p
      obtain ⟨rfl, hbefore⟩ := cutAtPair_eq_some_iff.1 hcut
      refine cutAtPair_eq_some_iff.2 ⟨(List.append_assoc ..).symm, ?_⟩
      rw [List.append_assoc]
      exact unpaired_append.2 ⟨h, hbefore, fun hl => absurd hl hlast⟩

/-- More text behind the first pair does not move it. -/
theorem cutAtPair_append_right (h : cutAtPair pair t = some (before, after)) (u : Text) :
    cutAtPair pair (t ++ u) = some (before, after ++ u) := by
  obtain ⟨rfl, hbefore⟩ := cutAtPair_eq_some_iff.1 h
  refine cutAtPair_eq_some_iff.2 ⟨?_, hbefore⟩
  simp only [List.append_assoc, List.cons_append]

/-- Behind text without the character, its first pair is the one that is written there. -/
theorem cutAtPair_append_pair (h : pair ∉ s) (t : Text) :
    cutAtPair pair (s ++ pair :: pair :: t) = some (s, t) := by
  refine cutAtPair_eq_some_iff.2 ⟨rfl, unpaired_append.2 ⟨unpaired_of_not_mem h, ?_, ?_⟩⟩
  · exact List.isChain_singleton pair
  · intro hl
    exact absurd (List.mem_of_mem_getLast? hl) h

end PagePress.Text
