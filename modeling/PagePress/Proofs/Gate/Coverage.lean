/-
  PagePress.Proofs.Gate.Coverage

  Missing fields and the coverage of a page.

  The required fields that are not filled are reported one by one, in the
  order of the rule set, and the coverage counts the others
  (`Page.length_unfilled`, `Page.coverage_eq_ratio`).  A part of fewer than
  2 ^ 53 fields is not rounded to the whole, so a page is fully covered, and
  gets no advice about its fields, exactly if no field is reported
  (`RuleSet.judge_fields`).
-/

import Mathlib.Data.List.Basic
import PagePress.Proofs.Gate.Code

namespace PagePress

open Double

/-! ## Coverage -/

namespace Page

theorem clamp_eq_self {x : Float} (h : isRatio x = true) : clamp x = x := by
  have hle := (isRatio_iff x).1 h
  rw [clamp, if_neg ((not_lt hle.nonneg zero_nonneg).2 hle.nonneg),
    if_neg ((not_lt one_nonneg hle.nonneg).2 hle.le)]

section

variable (required : List Text) (c : Context)

/-- The required fields that no variable fills, in order. -/
def unfilled : List Text := required.filter fun path => !c.fills path

theorem length_unfilled :
    (unfilled required c).length + (required.filter c.fills).length = required.length := by
  rw [unfilled, Nat.add_comm]
  exact (List.length_eq_length_filter_add c.fills).symm

theorem unfilled_eq_nil_iff :
    unfilled required c = [] ↔ (required.filter c.fills).length = required.length := by
  have hlength := length_unfilled required c
  rw [← List.length_eq_zero_iff]
  omega

theorem coverage_eq_ratio :
    coverage required c =
      if required = [] then 1.0 else ratio (required.filter c.fills).length required.length := by
  have hratio := ratio_atMost_one (List.length_filter_le c.fills required)
  rw [coverage, clamp_eq_self ((isRatio_iff _).2 hratio)]
  simp only [List.isEmpty_iff]

/-- Rounding does not make a page with a field that is not filled a fully covered one. -/
theorem coverage_eq_one_iff {required : List Text} (h : required.length < 2 ^ 53) :
    coverage required c = 1.0 ↔ unfilled required c = [] := by
  have hle := List.length_filter_le c.fills required
  rw [coverage_eq_ratio]
  split
  · next hnil =>
      subst hnil
      exact iff_of_true rfl rfl
  · next hne =>
      rw [ratio_eq_one_iff hle (Nat.lt_of_le_of_lt hle h), unfilled_eq_nil_iff]
      exact and_iff_left (mt List.length_eq_zero_iff.1 hne)

end

end Page

/-! ## Advice -/

namespace Quality

theorem mem_suggestions_iff (q : Quality Float) (t : Text) :
    t ∈ q.suggestions ↔
      (q.coverage < 1.0 ∧ t = advice.coverage) ∨ (q.freshness < 1.0 ∧ t = advice.freshness) ∨
        (q.outline < 1.0 ∧ t = advice.outline) ∨
          (q.originality < 1.0 ∧ t = advice.originality) ∨ (q.geo < 1.0 ∧ t = advice.geo) := by
  have hsuggest (x : Float) (u : Text) :
      t ∈ (if x < 1.0 then [u] else []) ↔ x < 1.0 ∧ t = u := by
    split
    · next hlt => rw [List.mem_singleton, and_iff_right hlt]
    · next hge => exact iff_of_false List.not_mem_nil fun h => hge h.1
  simp only [suggestions, List.mem_append, hsuggest, or_assoc]

/-- No other part has the advice of the coverage. -/
theorem coverage_mem_suggestions_iff (q : Quality Float) :
    advice.coverage ∈ q.suggestions ↔ q.coverage < 1.0 := by
  -- the texts are all different, so the advice is there for one reason only
  have hother : advice.coverage ∉
      [advice.freshness, advice.outline, advice.originality, advice.geo] := by decide
  simp only [List.mem_cons, List.not_mem_nil, or_false, not_or] at hother
  simp only [mem_suggestions_iff, hother, and_false, or_false, and_true]

end Quality

/-! ## Verdicts -/

/-- On a page of a known type the errors about fields name, in the order of the rule set, the
    required fields that are not filled, and with the fields that the coverage counts they are all
    required fields.  Of fewer than 2 ^ 53 fields a page is fully covered, and there is no advice
    about them, exactly if there is no such error. -/
theorem RuleSet.judge_fields (r : RuleSet) {type : Text} {t : TypeRules}
    (ht : r.typeRules? type = some t) (content : Text) (c : Context) (now : Instant) :
    let v := r.judge content type c now
    let errors := v.errorsWith Gate.fieldCode
    let filled := t.required.filter c.fills
    errors = (t.required.filter fun path => !c.fills path).map
        (fun path => (Finding.missingField path).toDiagnostic) ∧
      v.quality.coverage =
        (if t.required = [] then 1.0 else Page.ratio filled.length t.required.length) ∧
      errors.length = t.required.length - filled.length ∧
      filled.length ≤ t.required.length ∧
      (t.required.length < 2 ^ 53 →
        (v.quality.coverage = 1.0 ↔ errors = []) ∧
          (Quality.advice.coverage ∉ v.suggestions ↔ errors = [])) := by
  intro v errors filled
  have hv : v = .ofFindings _ _ _ := judge_known ht content c now
  have herrors : errors = (Page.unfilled t.required c).map
      fun path => (Finding.missingField path).toDiagnostic := by
    rw [show errors = v.errorsWith Gate.fieldCode from rfl, hv, Verdict.errorsWith_field]
    exact List.map_map
  have hquality : v.quality = .ofPage content t c now r := by rw [hv]; rfl
  have hcoverage : v.quality.coverage = Page.coverage t.required c := by rw [hquality]; rfl
  have hsuggestions : v.suggestions = v.quality.suggestions := by rw [hv]; rfl
  have hnil : errors = [] ↔ Page.unfilled t.required c = [] := by rw [herrors, List.map_eq_nil_iff]
  refine ⟨herrors, ?_, ?_, List.length_filter_le _ _, fun hlen => ?_⟩
  · rw [hcoverage, Page.coverage_eq_ratio]
  · rw [herrors, List.length_map, ← Page.length_unfilled t.required c]
    exact (Nat.add_sub_cancel ..).symm
  · -- the advice asks for a coverage below 1, and no coverage is above
    have hone : v.quality.coverage = 1.0 ↔ errors = [] := by
      rw [hcoverage, Page.coverage_eq_one_iff c hlen, hnil]
    have hle : AtMost v.quality.coverage 1.0 := by
      rw [hcoverage]
      exact (isRatio_iff _).1 (Page.coverage_isRatio t.required c)
    have hpos : 0 < size 1.0 := by
      rw [size_one]
      exact Nat.two_pow_pos _
    refine ⟨hone, ?_⟩
    rw [hsuggestions, Quality.coverage_mem_suggestions_iff, hle.not_lt_iff hpos, hone]

/-- A field inside another one that is required twice and blank, and one that is filled. -/
theorem RuleSet.judge_fields_twice :
    let t : TypeRules := { required := ["a.b", "c", "a.b"] }
    let r : RuleSet := { types := [(['x'], t)] }
    let c : Context := ⟨[(['a'], .map [(['b'], .text [' '])]), (['c'], .number 0.0)], []⟩
    let v := r.judge [] ['x'] c ⟨0, 0⟩
    r.typeRules? ['x'] = some t ∧
      v.errorsWith Gate.fieldCode =
        [(Finding.missingField "a.b").toDiagnostic, (Finding.missingField "a.b").toDiagnostic] ∧
      v.quality.coverage ≠ 1.0 ∧ Quality.advice.coverage ∈ v.suggestions := by
  intro t r c v
  have ht : r.typeRules? ['x'] = some t := rfl
  obtain ⟨herrors, -, -, -, hfull⟩ := r.judge_fields ht [] c ⟨0, 0⟩
  have hmissing : (t.required.filter fun path => !c.fills path) = ["a.b", "a.b"] := by decide
  rw [hmissing] at herrors
  have hne : v.errorsWith Gate.fieldCode ≠ [] := herrors ▸ List.cons_ne_nil _ _
  obtain ⟨hcoverage, hadvice⟩ := hfull (by decide)
  exact ⟨ht, herrors, mt hcoverage.1 hne, by_contra fun hnone => hne (hadvice.1 hnone)⟩

end PagePress
