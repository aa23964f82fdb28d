/-
  PagePress.Proofs.Gate.Verdict

  Verdicts explain themselves.

  What is found wrong with a page is an error or a warning by its code
  (`Finding.severity_of_code`), and no check of a page reports on the score
  (`Gate.lowScore_not_mem`).  As the score and the threshold can always be
  compared, the report on the score is there exactly if the score is too low,
  and a page is blocked exactly if there is an error or this report
  (`RuleSet.judge_gate`).
-/

import PagePress.Proofs.Gate.Score

namespace PagePress

/-! ## Codes -/

namespace Finding

/-- The codes of errors, and those of warnings. -/
def codes : Severity → List Text
  | .error => ["L-2-1", "L-2-3", "L-2-4", "L-2-5", "L-2-8", "L-2-11"]
  | .warning => ["L-2-2", "L-2-6", "L-2-7", "L-2-9", "L-2-10", "L-2-12"]

/-- The code of the report on the score. -/
def scoreCode : Text := "L-2-12"

theorem code_mem (f : Finding) : f.code ∈ codes f.severity := by
  cases f <;> exact of_decide_eq_true rfl

/-- No code is one of errors and one of warnings. -/
theorem eq_of_mem_codes {s s' : Severity} {code : Text} (h : code ∈ codes s)
    (h' : code ∈ codes s') : s = s' := by
  have hdisjoint : ∀ code ∈ codes .error, code ∉ codes .warning := by decide
  cases s with
  | error =>
      cases s' with
      | error => rfl
      | warning => exact absurd h' (hdisjoint code h)
  | warning =>
      cases s' with
      | error => exact absurd h (hdisjoint code h')
      | warning => rfl

/-- The code of a finding tells whether it is an error or a warning. -/
theorem severity_of_code {f : Finding} {s : Severity} (h : f.code ∈ codes s) : f.severity = s :=
  eq_of_mem_codes f.code_mem h

/-- Only the report on the score has its code. -/
theorem eq_lowScore {f : Finding} (h : f.code = scoreCode) : ∃ x y, f = .lowScore x y := by
  cases f with
  | lowScore x y => exact ⟨x, y, rfl⟩
  | _ => exact absurd h (of_decide_eq_false rfl)

end Finding

/-! ## Checks -/

namespace Gate

theorem mem_report {condition : Bool} {f g : Finding} (h : f ∈ report condition g) : f = g := by
  cases condition with
  | true => exact List.mem_singleton.1 h
  | false => exact absurd h List.not_mem_nil

theorem mem_compare {band : Band} {actual : Nat} {f below above : Finding}
    (h : f ∈ compare band actual below above) : f = below ∨ f = above := by
  unfold compare at h
  split at h
  · exact .inl (List.mem_singleton.1 h)
  · split at h
    · exact .inr (List.mem_singleton.1 h)
    · exact absurd h List.not_mem_nil

section Codes

variable {type content : Text} {band : Band} {f : Finding}

theorem code_checkLength (h : f ∈ checkLength type band content) :
    f.code ∈ (["L-2-1", "L-2-2"] : List Text) := by
  rcases mem_compare h with rfl | rfl <;> exact of_decide_eq_true rfl

theorem code_checkFields {required : List Text} {c : Context} (h : f ∈ checkFields required c) :
    f.code = "L-2-3".toList := by
  obtain ⟨path, -, rfl⟩ := List.mem_map.1 h
  rfl

theorem code_checkWords {forbidden : List Text} (h : f ∈ checkWords forbidden content) :
    f.code = "L-2-4".toList := by
  obtain ⟨word, -, hword⟩ := List.mem_filterMap.1 h
  obtain ⟨found, -, rfl⟩ := Option.map_eq_some_iff.1 hword
  rfl

theorem code_checkOutline {r : OutlineRules} (h : f ∈ checkOutline r content) :
    f.code ∈ (["L-2-5", "L-2-6", "L-2-7"] : List Text) := by
  rw [checkOutline, List.mem_append, List.mem_append] at h
  rcases h with (h | h) | h <;> obtain rfl := mem_report h <;> exact of_decide_eq_true rfl

theorem code_checkQuestions {mark : Text} (h : f ∈ checkQuestions mark band content) :
    f.code ∈ (["L-2-8", "L-2-9"] : List Text) := by
  rcases mem_compare h with rfl | rfl <;> exact of_decide_eq_true rfl

theorem code_checkOverlap {r : OverlapRules} {c : Context} (h : f ∈ checkOverlap r content c) :
    f.code = "L-2-10".toList := by
  unfold checkOverlap at h
  split at h
  · exact absurd h List.not_mem_nil
  · split at h
    · exact absurd h List.not_mem_nil
    · obtain rfl := mem_report h
      rfl

end Codes

/-- No check of a page reports on its score. -/
theorem lowScore_not_mem (r : RuleSet) (type : Text) (t : TypeRules) (content : Text) (c : Context)
    (x y : Float) : Finding.lowScore x y ∉ checkPage r type t content c := by
  unfold checkPage
  simp only [List.mem_append]
  rintro (((((h | h) | h) | h) | h) | h)
  · exact absurd (code_checkLength h) (of_decide_eq_false rfl)
  · exact absurd (code_checkFields h) (of_decide_eq_false rfl)
  · exact absurd (code_checkWords h) (of_decide_eq_false rfl)
  · exact absurd (code_checkOutline h) (of_decide_eq_false rfl)
  · exact absurd (code_checkQuestions h) (of_decide_eq_false rfl)
  · exact absurd (code_checkOverlap h) (of_decide_eq_false rfl)

end Gate

/-! ## Verdicts -/

namespace Verdict

theorem mem_select {severity : Severity} {fs : List Finding} {d : Diagnostic}
    (h : d ∈ select severity fs) :
    d.severity = severity ∧ d.code ∈ (Finding.codes severity).map some := by
  obtain ⟨f, hf, rfl⟩ := List.mem_map.1 h
  obtain rfl : f.severity = severity := eq_of_beq (List.mem_filter.1 hf).2
  exact ⟨rfl, List.mem_map_of_mem f.code_mem⟩

theorem select_append (severity : Severity) (fs gs : List Finding) :
    select severity (fs ++ gs) = select severity fs ++ select severity gs := by
  rw [select, List.filter_append, List.map_append]
  rfl

/-- The report on the score is among the warnings exactly if the score is too low. -/
theorem scoreCode_iff (findings : List Finding) (hfindings : ∀ x y, .lowScore x y ∉ findings)
    (q : Quality Float) (r : ScoringRules) :
    (∀ d ∈ (ofFindings findings q r).warnings, d.code ≠ some Finding.scoreCode) ↔
      ¬q.score r.weights < r.threshold := by
  have hchecks : ∀ d ∈ select .warning findings, d.code ≠ some Finding.scoreCode := by
    intro d hd hcode
    obtain ⟨f, hf, rfl⟩ := List.mem_map.1 hd
    obtain ⟨x, y, rfl⟩ := Finding.eq_lowScore (Option.some.inj hcode)
    exact hfindings x y (List.mem_filter.1 hf).1
  have hwarnings : (ofFindings findings q r).warnings = select .warning findings ++
      select .warning (Gate.report (decide (q.score r.weights < r.threshold))
        (.lowScore (q.score r.weights) r.threshold)) := select_append _ _ _
  rw [hwarnings]
  by_cases hlow : q.score r.weights < r.threshold
  · rw [decide_eq_true hlow]
    refine iff_of_false (fun h => ?_) (not_not_intro hlow)
    exact h _ (List.mem_append_right _ (List.mem_singleton.2 rfl)) rfl
  · rw [decide_eq_false hlow]
    refine iff_of_true (fun d hd => ?_) hlow
    exact hchecks d ((List.mem_append.1 hd).resolve_right List.not_mem_nil)

end Verdict

/-- Under a consistent rule set every error and every warning has a code of its kind, and a page is
    blocked exactly if there is an error or a warning about the score. -/
theorem RuleSet.judge_gate (r : RuleSet) (h : r.fault? = none) (content type : Text) (c : Context)
    (now : Instant) :
    let v := r.judge content type c now
    (∀ d ∈ v.errors, d.severity = .error ∧ d.code ∈ (Finding.codes .error).map some) ∧
      (∀ d ∈ v.warnings, d.severity = .warning ∧ d.code ∈ (Finding.codes .warning).map some) ∧
        (v.isValid = true ↔
          v.errors = [] ∧ ∀ d ∈ v.warnings, d.code ≠ some Finding.scoreCode) := by
  have hconsistent := r.fault?_eq_none.1 h
  intro v
  cases ht : r.typeRules? type with
  | none =>
      rw [show v = _ from judge_unknown ht content c now]
      have herrors : (Verdict.ofUnknownType type r.typeNames).errors =
          Verdict.select .error [.unknownType type r.typeNames] := rfl
      refine ⟨fun d hd => ?_, nofun, iff_of_false nofun fun hnone => ?_⟩
      · exact Verdict.mem_select (herrors ▸ hd)
      · exact List.cons_ne_nil _ _ hnone.1
  | some t =>
      rw [show v = _ from judge_known ht content c now]
      refine ⟨fun d hd => Verdict.mem_select hd, fun d hd => Verdict.mem_select hd, ?_⟩
      have hscore := (Quality.score_atMost (Quality.ofPage_isRatio content t c now r)
        hconsistent.weights).nonneg
      have hthreshold := ((isRatio_iff _).1 hconsistent.threshold).nonneg
      rw [Verdict.scoreCode_iff _ (Gate.lowScore_not_mem r type t content c),
        Double.not_lt hscore hthreshold]
      show (List.isEmpty _ && decide _) = true ↔ _
      rw [Bool.and_eq_true, List.isEmpty_iff, decide_eq_true_iff]
      rfl

theorem RuleSet.judge_gate_empty :
    let v := RuleSet.builtin.judge [] "place".toList .empty ⟨0, 0⟩
    RuleSet.builtin.fault? = none ∧ v.errors ≠ [] ∧ v.isValid = false := by
  intro v
  have hfault : RuleSet.builtin.fault? = none := by decide
  have hgate := RuleSet.builtin.judge_gate hfault [] "place".toList .empty ⟨0, 0⟩
  have herrors : v.errors ≠ [] := List.cons_ne_nil _ _
  exact ⟨hfault, herrors, Bool.eq_false_iff.2 fun hvalid => herrors (hgate.2.2.1 hvalid).1⟩

end PagePress
