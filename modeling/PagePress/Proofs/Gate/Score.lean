/-
  PagePress.Proofs.Gate.Score

  Bounds of the quality and of the score.

  Every part of the quality lies between 0 and 1, whatever the page and the
  rules are.  The score is never negative, and it is at most the sum of the
  weights (`RuleSet.judge_score`).  A consistent rule set may have weights
  with a larger sum than 1, and then the score may be larger than 1, too.
-/

import PagePress.Gate.Verdict
import PagePress.Proofs.Page.Ratio
import PagePress.Proofs.Rules.Consistent

namespace PagePress

open Double

/-! ## Ratios -/

theorem isRatio_iff (x : Float) : isRatio x = true ↔ AtMost x 1.0 := by
  rw [isRatio, Bool.and_eq_true, decide_eq_true_iff, decide_eq_true_iff]
  exact ⟨fun h => ⟨h.1, one_nonneg, h.2⟩, fun h => ⟨h.nonneg, h.le⟩⟩

theorem zero_isRatio : isRatio 0.0 = true := by decide

theorem weight_nonneg {x : Float} (h : isWeight x = true) : 0.0 ≤ x ∧ x.isFinite = true := by
  rw [isWeight, Bool.and_eq_true, Bool.not_eq_true', decide_eq_false_iff_not] at h
  exact ⟨nonneg_of_finite h.1 h.2, h.1⟩

namespace Page

theorem clamp_isRatio {x : Float} (h : 0.0 ≤ x) : isRatio (clamp x) = true := by
  rw [clamp]
  split
  · decide
  · split
    · decide
    · next hle => exact (isRatio_iff x).2 ⟨h, one_nonneg, (not_lt one_nonneg h).1 hle⟩

theorem credit_isRatio {shares : List (Bool × Float)} (h : ∀ share ∈ shares, 0.0 ≤ share.2) :
    isRatio (credit shares) = true := by
  refine clamp_isRatio ?_
  have hsum (sum : Float) (hnonneg : 0.0 ≤ sum) :
      0.0 ≤ shares.foldl (fun sum share => if share.1 then sum + share.2 else sum) sum := by
    induction shares generalizing sum with
    | nil => exact hnonneg
    | cons share shares ih =>
        refine ih (fun s hs => h s (List.mem_cons_of_mem _ hs)) _ ?_
        dsimp only
        split
        · exact (add_spec hnonneg (h share List.mem_cons_self)).1
        · exact hnonneg
  exact hsum 0.0 (by decide)

/-! ## Parts -/

theorem coverage_isRatio (required : List Text) (c : Context) :
    isRatio (coverage required c) = true := by
  rw [coverage]
  split
  · decide
  · exact clamp_isRatio (ratio_nonneg _ _)

theorem freshness_isRatio (updated : Option Instant) (now : Instant) (r : FreshnessRules) :
    isRatio (freshness updated now r) = true := by
  cases updated with
  | none => exact zero_isRatio
  | some updated =>
      unfold freshness
      dsimp only
      repeat' split
      all_goals decide

theorem outline_isRatio (content : Text) (r : OutlineRules) : isRatio (outline content r) = true :=
  credit_isRatio (by simp; decide)

theorem originality_isRatio (content : Text) : isRatio (originality content) = true :=
  clamp_isRatio (ratio_nonneg _ _)

theorem geo_isRatio (c : Context) (r : GeoRules) : isRatio (geo c r) = true :=
  credit_isRatio (by simp; decide)

end Page

/-! ## Sums -/

namespace Quality

theorem forall_named {α : Type} (q : Quality α) (P : α → Prop) :
    (∀ part ∈ q.named, P part.2) ↔
      P q.coverage ∧ P q.freshness ∧ P q.outline ∧ P q.originality ∧ P q.geo := by
  simp [named]

theorem ofPage_isRatio (content : Text) (t : TypeRules) (c : Context) (now : Instant)
    (r : RuleSet) : ∀ part ∈ (ofPage content t c now r).named, isRatio part.2 = true :=
  (forall_named _ fun x => isRatio x = true).2
    ⟨Page.coverage_isRatio _ _, Page.freshness_isRatio _ _ _, Page.outline_isRatio _ _,
      Page.originality_isRatio _, Page.geo_isRatio _ _⟩

theorem zero_isRatio : ∀ part ∈ zero.named, isRatio part.2 = true :=
  (forall_named _ fun x => isRatio x = true).2 (by decide)

/-- The sum of the weights. -/
def total (weights : Quality Float) : Float :=
  weights.coverage + weights.freshness + weights.outline + weights.originality + weights.geo

theorem share_atMost {weight part : Float} (hweight : isWeight weight = true)
    (hpart : isRatio part = true) : AtMost (weight * part) weight := by
  obtain ⟨hnonneg, hfinite⟩ := weight_nonneg hweight
  exact .mul_right hnonneg hfinite ((isRatio_iff part).1 hpart)

/-- A score is at most the sum of the weights, for parts that are at most 1. -/
theorem score_atMost {q weights : Quality Float} (hq : ∀ part ∈ q.named, isRatio part.2 = true)
    (hweights : ∀ w ∈ weights.named, isWeight w.2 = true) :
    AtMost (q.score weights) weights.total := by
  rw [forall_named _ fun x => isRatio x = true] at hq
  rw [forall_named _ fun x => isWeight x = true] at hweights
  obtain ⟨hc, hf, ho, hr, hg⟩ := hq
  obtain ⟨hc', hf', ho', hr', hg'⟩ := hweights
  exact ((((share_atMost hc' hc).add (share_atMost hf' hf)).add (share_atMost ho' ho)).add
    (share_atMost hr' hr)).add (share_atMost hg' hg)

end Quality

/-! ## Verdicts -/

namespace RuleSet

variable {r : RuleSet} {type : Text}

theorem judge_unknown (h : r.typeRules? type = none) (content : Text) (c : Context)
    (now : Instant) : r.judge content type c now = .ofUnknownType type r.typeNames := by
  rw [judge, h]

theorem judge_known {t : TypeRules} (h : r.typeRules? type = some t) (content : Text) (c : Context)
    (now : Instant) : r.judge content type c now =
      .ofFindings (Gate.checkPage r type t content c) (.ofPage content t c now r) r.scoring := by
  rw [judge, h]

end RuleSet

/-- A rule set with one page type, under which a page has the coverage of its fields as its score,
    up to a factor. -/
def RuleSet.ofCoverage (weight : Float) : RuleSet where
  types := [(['x'], { length := ⟨0, 0⟩, faq := ⟨0, 0⟩ })]
  scoring := ⟨⟨weight, 0.0, 0.0, 0.0, 0.0⟩, 0.85⟩

/-- Under a consistent rule set the parts of the quality lie between 0 and 1, and the score lies
    between 0 and the sum of the weights; so it is at most 1 if the sum is. -/
theorem RuleSet.judge_score (r : RuleSet) (h : r.fault? = none) (content type : Text) (c : Context)
    (now : Instant) :
    let v := r.judge content type c now
    (∀ part ∈ v.quality.named, isRatio part.2 = true) ∧ 0.0 ≤ v.score ∧
      v.score ≤ r.scoring.weights.total ∧
        (r.scoring.weights.total ≤ 1.0 → isRatio v.score = true) := by
  have hweights := (r.fault?_eq_none.1 h).weights
  intro v
  suffices hbounds : (∀ part ∈ v.quality.named, isRatio part.2 = true) ∧
      AtMost v.score r.scoring.weights.total by
    obtain ⟨hquality, hscore⟩ := hbounds
    exact ⟨hquality, hscore.nonneg, hscore.le, fun hle =>
      (isRatio_iff _).2 (hscore.trans ⟨hscore.nonneg_bound, one_nonneg, hle⟩)⟩
  cases ht : r.typeRules? type with
  | none =>
      have htotal := (Quality.score_atMost Quality.zero_isRatio hweights).nonneg_bound
      have hzero : (0.0 : Float) ≤ 0.0 := by decide
      rw [show v = _ from judge_unknown ht content c now]
      exact ⟨Quality.zero_isRatio, hzero, htotal, htotal⟩
  | some t =>
      have hpage := Quality.ofPage_isRatio content t c now r
      rw [show v = _ from judge_known ht content c now]
      exact ⟨hpage, Quality.score_atMost hpage hweights⟩

theorem RuleSet.judge_score_builtin :
    let v := RuleSet.builtin.judge [] "place".toList .empty ⟨0, 0⟩
    RuleSet.builtin.fault? = none ∧ isRatio v.score = true := by
  have hfault : RuleSet.builtin.fault? = none := by decide
  have h := RuleSet.builtin.judge_score hfault [] "place".toList .empty ⟨0, 0⟩
  exact ⟨hfault, h.2.2.2 (by decide)⟩

/-- A consistent rule set can make a score larger than 1. -/
theorem RuleSet.exists_score_above_one :
    let v := (RuleSet.ofCoverage 2.0).judge [] ['x'] .empty ⟨0, 0⟩
    (RuleSet.ofCoverage 2.0).fault? = none ∧ v.score = 2.0 ∧ isRatio v.score = false := by
  have hfault : (RuleSet.ofCoverage 2.0).fault? = none := by decide
  have hlinks : Page.links [] = 0 := by
    rw [Page.links, Page.skipPath?, Page.linksWithin]
    rfl
  have hq : Quality.ofPage [] { length := ⟨0, 0⟩, faq := ⟨0, 0⟩ } .empty ⟨0, 0⟩
      (RuleSet.ofCoverage 2.0) = ⟨1.0, 0.0, 0.0, 0.0, 0.0⟩ := by
    rw [Quality.ofPage, Page.outline, hlinks]
    decide
  have hscore : ((RuleSet.ofCoverage 2.0).judge [] ['x'] .empty ⟨0, 0⟩).score = 2.0 := by
    show Quality.score (Quality.ofPage [] _ .empty ⟨0, 0⟩ (RuleSet.ofCoverage 2.0)) _ = _
    rw [hq]
    decide
  exact ⟨hfault, hscore, by rw [hscore]; decide⟩

end PagePress
