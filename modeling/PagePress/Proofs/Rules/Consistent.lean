/-
  PagePress.Proofs.Rules.Consistent

  Consistent rule sets.

  The faults of a rule set are looked for one after the other, and the first
  one is reported.  A rule set without a fault satisfies all the conditions at
  once (`RuleSet.fault?_eq_none`).
-/

import PagePress.Rules.Check

namespace PagePress

theorem RuleFault.when_eq_none (condition : Bool) (fault : RuleFault) :
    RuleFault.when condition fault = none ↔ condition = false := by
  cases condition <;> simp [RuleFault.when]

theorem TypeRules.fault?_eq_none (t : TypeRules) (type : Text) :
    t.fault? type = none ↔ t.length.least ≤ t.length.most ∧ t.faq.least ≤ t.faq.most := by
  rw [TypeRules.fault?]
  split
  · next h => simpa using fun hle => absurd hle (Nat.not_le.2 h)
  · next h =>
      split
      · next h' => simpa using fun _ => h'
      · next h' => simpa using ⟨Nat.not_lt.1 h, Nat.not_lt.1 h'⟩

theorem Quality.fault?_eq_none (weights : Quality Float) :
    weights.fault? = none ↔ ∀ w ∈ weights.named, isWeight w.2 = true := by
  rw [Quality.fault?, Option.map_eq_none_iff, List.find?_eq_none]
  simp only [Bool.not_eq_true', Bool.not_eq_false]

/-- What a rule set must be like. -/
structure RuleSet.Consistent (r : RuleSet) : Prop where
  bands : ∀ t ∈ r.types,
    t.2.length.least ≤ t.2.length.most ∧ t.2.faq.least ≤ t.2.faq.most
  weights : ∀ w ∈ r.scoring.weights.named, isWeight w.2 = true
  threshold : isRatio r.scoring.threshold = true
  stretch : r.overlap.stretch ≠ 0
  overlap : isRatio r.overlap.most = true
  ages : r.freshness.freshDays ≤ r.freshness.staleDays
  heading : r.outline.heading ≠ []

/-- A rule set has no fault exactly if it is as it must be. -/
theorem RuleSet.fault?_eq_none (r : RuleSet) : r.fault? = none ↔ r.Consistent := by
  have hbands : (r.types.findSome? fun t => t.2.fault? t.1) = none ↔ ∀ t ∈ r.types,
      t.2.length.least ≤ t.2.length.most ∧ t.2.faq.least ≤ t.2.faq.most := by
    simp only [List.findSome?_eq_none_iff, TypeRules.fault?_eq_none]
  rw [RuleSet.fault?]
  simp only [Option.orElse_eq_orElse, Option.orElse_eq_or, Option.or_eq_none_iff, hbands,
    Quality.fault?_eq_none, RuleFault.when_eq_none]
  constructor
  · rintro ⟨h₁, h₂, h₃, h₄, h₅, h₆, h₇⟩
    exact {
      bands := h₁
      weights := h₂
      threshold := by simpa using h₃
      stretch := by simpa using h₄
      overlap := by simpa using h₅
      ages := by simpa using h₆
      heading := by simpa using h₇ }
  · intro h
    exact ⟨h.bands, h.weights, by simpa using h.threshold, by simpa using h.stretch,
      by simpa using h.overlap, by simpa using h.ages, by simpa using h.heading⟩

end PagePress
