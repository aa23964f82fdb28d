/-
  PagePress.Proofs.Gate.Supply

  More variables never block a page.

  A context that gives every variable of another one the same meaning, and
  perhaps more variables, fills at least the same fields
  (`Context.Within.fills`).  So no error is found that was not found before
  (`Verdict.errors_sublist`), no part of the quality becomes worse
  (`Quality.AtMost.ofPage`), and as sums and products of doubles keep the order,
  the score does not fall either (`Quality.AtMost.score`).
-/

import Mathlib.Data.List.Basic
import Mathlib.Data.List.Forall2
import PagePress.Proofs.Gate.Code

namespace PagePress

open Double

/-! ## More variables -/

namespace Context

/-- Binds names in the innermost scope, one after the other. -/
def supply (c : Context) (bindings : Scope) : Context :=
  bindings.foldl (fun c binding => c.insert binding.1 binding.2) c

/-- What every variable of a context means is what it means in another one. -/
def Within (c c' : Context) : Prop :=
  ∀ name value, c.get? name = some value → c'.get? name = some value

theorem get?_insert (c : Context) (name : Text) (value : Value) (other : Text) :
    (c.insert name value).get? other = if other = name then some value else c.get? other := by
  rw [get?, get?, insert, List.findSome?_cons, List.findSome?_cons, List.lookup_cons]
  by_cases h : other = name
  · rw [if_pos h, beq_iff_eq.2 h]
  · rw [if_neg h, beq_eq_false_iff_ne.2 h]

namespace Within

variable {c c' : Context}

theorem refl (c : Context) : Within c c := fun _ _ h => h

/-- A name that a context does not bind may be bound in a larger one. -/
theorem insert (h : Within c c') {name : Text} (hname : c.get? name = none) (value : Value) :
    Within c (c'.insert name value) := by
  intro other v hother
  have hne : other ≠ name := by
    rintro rfl
    rw [hname] at hother
    exact Option.some_ne_none v hother.symm
  rw [get?_insert, if_neg hne]
  exact h other v hother

theorem supply {bindings : Scope} (h : Within c c')
    (hnew : ∀ binding ∈ bindings, c.get? binding.1 = none) : Within c (c'.supply bindings) := by
  induction bindings generalizing c' with
  | nil => exact h
  | cons binding bindings ih =>
      obtain ⟨hfirst, hrest⟩ := List.forall_mem_cons.1 hnew
      exact ih (h.insert hfirst binding.2) hrest

theorem dotted? (h : Within c c') {path : Text} {v : Value} (hv : c.dotted? path = some v) :
    c'.dotted? path = some v := by
  rw [Context.dotted?] at hv ⊢
  cases hpath : Text.splitOn '.' path with
  | nil =>
      rw [hpath] at hv
      exact absurd hv.symm (Option.some_ne_none v)
  | cons name keys =>
      rw [hpath] at hv
      obtain ⟨u, hu, hat⟩ := Option.bind_eq_some_iff.1 hv
      exact Option.bind_eq_some_iff.2 ⟨u, h name u hu, hat⟩

theorem fills (h : Within c c') {path : Text} (hpath : c.fills path = true) :
    c'.fills path = true := by
  rw [Context.fills] at hpath
  cases hv : c.dotted? path with
  | none =>
      rw [hv] at hpath
      exact absurd hpath Bool.false_ne_true
  | some v =>
      rw [hv] at hpath
      rw [Context.fills, h.dotted? hv]
      exact hpath

end Within

end Context

open Context (Within)

variable {c c' : Context}

/-! ## Errors -/

namespace Gate

theorem checkFields_sublist (h : Within c c') (required : List Text) :
    (checkFields required c').Sublist (checkFields required c) := by
  refine List.Sublist.map _ (List.monotone_filter_right required fun path hpath => ?_)
  rw [Bool.not_eq_true'] at hpath ⊢
  exact Bool.eq_false_iff.2 fun hfills => Bool.eq_false_iff.1 hpath (h.fills hfills)

end Gate

namespace Verdict

theorem select_eq_nil {severity : Severity} {fs : List Finding}
    (h : ∀ f ∈ fs, f.severity ≠ severity) : select severity fs = [] := by
  rw [select, List.filter_eq_nil_iff.2 fun f hf hs => h f hf (eq_of_beq hs), List.map_nil]

theorem select_sublist (severity : Severity) {fs gs : List Finding} (h : fs.Sublist gs) :
    (select severity fs).Sublist (select severity gs) :=
  (h.filter _).map _

/-- The errors are those about the page and its fields: neither the reference text nor the score
    adds one. -/
theorem errors_ofFindings (r : RuleSet) (type : Text) (t : TypeRules) (content : Text)
    (c : Context) (q : Quality Float) :
    (ofFindings (Gate.checkPage r type t content c) q r.scoring).errors =
      select .error (Gate.checkLength type t.length content) ++
        (select .error (Gate.checkFields t.required c) ++
          select .error (Gate.checkWords r.forbidden content ++
            Gate.checkOutline r.outline content ++
              Gate.checkQuestions r.outline.question t.faq content)) := by
  have hoverlap : select .error (Gate.checkOverlap r.overlap content c) = [] := by
    apply select_eq_nil
    intro f hf
    have hcode : f.code ∈ Finding.codes .warning := by
      rw [Gate.code_checkOverlap hf]
      decide
    rw [Finding.severity_of_code hcode]
    decide
  have hscore (x y : Float) (low : Bool) :
      select .error (Gate.report low (.lowScore x y)) = [] :=
    select_eq_nil fun f hf => by
      rw [Gate.mem_report hf]
      exact nofun
  show select .error (Gate.checkPage r type t content c ++ Gate.report _ _) = _
  rw [select_append, hscore, List.append_nil, Gate.checkPage]
  simp only [select_append, hoverlap, List.append_nil, List.append_assoc]

/-- With more variables no error is found that was not found before. -/
theorem errors_sublist (h : Within c c') (r : RuleSet) (type : Text) (t : TypeRules)
    (content : Text) (q q' : Quality Float) :
    (ofFindings (Gate.checkPage r type t content c') q' r.scoring).errors.Sublist
      (ofFindings (Gate.checkPage r type t content c) q r.scoring).errors := by
  have hfields := select_sublist .error (Gate.checkFields_sublist h t.required)
  rw [errors_ofFindings, errors_ofFindings]
  exact (hfields.append_right _).append_left _

end Verdict

/-! ## Quality -/

namespace Page

theorem clamp_atMost {x y : Float} (h : AtMost x y) : AtMost (clamp x) (clamp y) := by
  have hx : ¬x < 0.0 := (Double.not_lt h.nonneg zero_nonneg).2 h.nonneg
  have hy : ¬y < 0.0 := (Double.not_lt h.nonneg_bound zero_nonneg).2 h.nonneg_bound
  rw [clamp, clamp, if_neg hx, if_neg hy]
  by_cases hlarge : 1.0 < x
  · have hlarge' : 1.0 < y := by
      rw [lt_iff one_nonneg h.nonneg] at hlarge
      rw [lt_iff one_nonneg h.nonneg_bound]
      exact Nat.lt_of_lt_of_le hlarge h.size_le
    rw [if_pos hlarge, if_pos hlarge']
    exact .refl one_nonneg
  · rw [if_neg hlarge]
    split
    · exact ⟨h.nonneg, one_nonneg, (Double.not_lt one_nonneg h.nonneg).1 hlarge⟩
    · exact h

/-- Two lists of the same shares; what is there in the first list is there in the second one. -/
def NoFewer (share share' : Bool × Float) : Prop :=
  share.2 = share'.2 ∧ 0.0 ≤ share.2 ∧ (share.1 = true → share'.1 = true)

theorem credit_atMost {shares shares' : List (Bool × Float)}
    (h : List.Forall₂ NoFewer shares shares') : AtMost (credit shares) (credit shares') := by
  have hsum {sum sum' : Float} (hle : AtMost sum sum') :
      AtMost (shares.foldl (fun sum share => if share.1 then sum + share.2 else sum) sum)
        (shares'.foldl (fun sum share => if share.1 then sum + share.2 else sum) sum') := by
    induction h generalizing sum sum' with
    | nil => exact hle
    | @cons share share' _ _ hshare _ ih =>
        obtain ⟨there, x⟩ := share
        obtain ⟨there', x'⟩ := share'
        obtain ⟨rfl, hnonneg, hthere⟩ := hshare
        refine ih ?_
        cases there with
        | true =>
            obtain rfl : there' = true := hthere rfl
            exact hle.add (.refl hnonneg)
        | false =>
            cases there' with
            | true => exact hle.trans (.add_right hle.nonneg_bound hnonneg)
            | false => exact hle
  exact clamp_atMost (hsum (.refl zero_nonneg))

theorem coverage_atMost (h : Within c c') (required : List Text) :
    AtMost (coverage required c) (coverage required c') := by
  rw [coverage, coverage]
  split
  · exact .refl one_nonneg
  · refine clamp_atMost (ratio_atMost ?_ _)
    exact (List.monotone_filter_right required fun _ => h.fills).length_le

/-- A time of the last update that is known does not change. -/
theorem freshness_atMost (h : Within c c') (now : Instant) (r : FreshnessRules) :
    AtMost (freshness (updated? c r) now r) (freshness (updated? c' r) now r) := by
  cases hfield : c.dotted? r.field with
  | none =>
      have hratio := (isRatio_iff _).1 (freshness_isRatio (updated? c' r) now r)
      have hunknown : updated? c r = none := by rw [updated?, hfield]
      rw [hunknown]
      exact ⟨zero_nonneg, hratio.nonneg, hratio.nonneg⟩
  | some v =>
      have hknown : updated? c' r = updated? c r := by
        rw [updated?, updated?, hfield, h.dotted? hfield]
      rw [hknown]
      exact .refl ((isRatio_iff _).1 (freshness_isRatio _ now r)).nonneg

theorem geo_atMost (h : Within c c') (r : GeoRules) : AtMost (geo c r) (geo c' r) := by
  have hplace : (c.fills r.latitude && c.fills r.longitude) = true →
      (c'.fills r.latitude && c'.fills r.longitude) = true := by
    rw [Bool.and_eq_true, Bool.and_eq_true]
    exact fun hboth => ⟨h.fills hboth.1, h.fills hboth.2⟩
  have hlarge : (0.0 : Float) ≤ 0.4 := by decide
  have hsmall : (0.0 : Float) ≤ 0.3 := by decide
  exact credit_atMost (.cons ⟨rfl, hlarge, hplace⟩
    (.cons ⟨rfl, hsmall, h.fills⟩ (.cons ⟨rfl, hsmall, h.fills⟩ .nil)))

end Page

namespace Quality

/-- Every part of a quality is at most the same part of another one. -/
structure AtMost (q q' : Quality Float) : Prop where
  coverage : Double.AtMost q.coverage q'.coverage
  freshness : Double.AtMost q.freshness q'.freshness
  outline : Double.AtMost q.outline q'.outline
  originality : Double.AtMost q.originality q'.originality
  geo : Double.AtMost q.geo q'.geo

namespace AtMost

theorem refl {q : Quality Float} (h : ∀ part ∈ q.named, isRatio part.2 = true) : AtMost q q := by
  have hnonneg {x : Float} (hx : isRatio x = true) : Double.AtMost x x :=
    .refl ((isRatio_iff x).1 hx).nonneg
  obtain ⟨hc, hf, ho, hr, hg⟩ := (forall_named _ fun x => isRatio x = true).1 h
  exact ⟨hnonneg hc, hnonneg hf, hnonneg ho, hnonneg hr, hnonneg hg⟩

/-- With more variables no part of the quality is worse. -/
theorem ofPage (h : Within c c') (content : Text) (t : TypeRules) (now : Instant) (r : RuleSet) :
    AtMost (Quality.ofPage content t c now r) (Quality.ofPage content t c' now r) where
  coverage := Page.coverage_atMost h t.required
  freshness := Page.freshness_atMost h now r.freshness
  outline := .refl ((isRatio_iff _).1 (Page.outline_isRatio content r.outline)).nonneg
  originality := .refl ((isRatio_iff _).1 (Page.originality_isRatio content)).nonneg
  geo := Page.geo_atMost h r.geo

/-- A better quality has no lower score. -/
theorem score {q q' weights : Quality Float} (h : AtMost q q')
    (hq : ∀ part ∈ q'.named, isRatio part.2 = true)
    (hweights : ∀ w ∈ weights.named, isWeight w.2 = true) :
    Double.AtMost (q.score weights) (q'.score weights) := by
  have hshare {weight x y : Float} (hweight : isWeight weight = true) (hle : Double.AtMost x y)
      (hy : isRatio y = true) : Double.AtMost (weight * x) (weight * y) := by
    obtain ⟨hnonneg, hfinite⟩ := weight_nonneg hweight
    exact (Double.AtMost.refl hnonneg).mul hle hfinite (((isRatio_iff y).1 hy).finite one_finite)
  rw [forall_named _ fun x => isRatio x = true] at hq
  rw [forall_named _ fun x => isWeight x = true] at hweights
  obtain ⟨hc, hf, ho, hr, hg⟩ := hq
  obtain ⟨hc', hf', ho', hr', hg'⟩ := hweights
  exact ((((hshare hc' h.coverage hc).add (hshare hf' h.freshness hf)).add
    (hshare ho' h.outline ho)).add (hshare hr' h.originality hr)).add (hshare hg' h.geo hg)

end AtMost

end Quality

/-! ## Verdicts -/

/-- Names that a context does not bind can be bound without harm, under a consistent rule set: no
    error is new, no part of the quality and no score is lower, and a page that may be published
    still may. -/
theorem RuleSet.judge_supply (r : RuleSet) (h : r.fault? = none) (content type : Text)
    (c : Context) (bindings : Scope) (hnew : ∀ binding ∈ bindings, c.get? binding.1 = none)
    (now : Instant) :
    let v := r.judge content type c now
    let v' := r.judge content type (c.supply bindings) now
    v'.errors.Sublist v.errors ∧ v.quality.AtMost v'.quality ∧ v.score ≤ v'.score ∧
      (v.isValid = true → v'.isValid = true) := by
  have hconsistent := r.fault?_eq_none.1 h
  have hwithin : Within c (c.supply bindings) := (Within.refl c).supply hnew
  intro v v'
  cases ht : r.typeRules? type with
  | none =>
      rw [show v = _ from judge_unknown ht content c now,
        show v' = _ from judge_unknown ht content (c.supply bindings) now]
      exact ⟨List.Sublist.refl _, .refl Quality.zero_isRatio, zero_nonneg, id⟩
  | some t =>
      have hquality := Quality.AtMost.ofPage hwithin content t now r
      have hscore := hquality.score (Quality.ofPage_isRatio content t _ now r) hconsistent.weights
      rw [show v = _ from judge_known ht content c now,
        show v' = _ from judge_known ht content (c.supply bindings) now]
      have herrors := Verdict.errors_sublist hwithin r type t content
        (.ofPage content t c now r) (.ofPage content t (c.supply bindings) now r)
      refine ⟨herrors, hquality, hscore.le, fun hvalid => ?_⟩
      have hthreshold := ((isRatio_iff _).1 hconsistent.threshold).nonneg
      obtain ⟨hnone, hreached⟩ := Bool.and_eq_true_iff.1 hvalid
      refine Bool.and_eq_true_iff.2 ⟨?_, decide_eq_true ?_⟩
      · rw [List.isEmpty_iff] at hnone ⊢
        exact List.sublist_nil.1 (hnone ▸ herrors)
      · have hle : Double.AtMost r.scoring.threshold _ :=
          ⟨hthreshold, hscore.nonneg, of_decide_eq_true hreached⟩
        exact (hle.trans hscore).le

/-- A name that is not bound yet, for a page that lacks it. -/
theorem RuleSet.judge_supply_name :
    let c : Context := ⟨[("region".toList, .text ['x'])], []⟩
    let bindings : Scope := [("name".toList, .text ['y'])]
    let v := RuleSet.builtin.judge [] "event".toList c ⟨0, 0⟩
    let v' := RuleSet.builtin.judge [] "event".toList (c.supply bindings) ⟨0, 0⟩
    RuleSet.builtin.fault? = none ∧ (∀ binding ∈ bindings, c.get? binding.1 = none) ∧
      v'.errors.Sublist v.errors ∧ v.quality.AtMost v'.quality ∧ v.score ≤ v'.score ∧
        (v.isValid = true → v'.isValid = true) := by
  intro c bindings
  have hfault : RuleSet.builtin.fault? = none := by decide
  have hnew : ∀ binding ∈ bindings, c.get? binding.1 = none :=
    fun binding hbinding => by rw [List.mem_singleton.1 hbinding]; rfl
  exact ⟨hfault, hnew, RuleSet.builtin.judge_supply hfault [] "event".toList c bindings hnew ⟨0, 0⟩⟩

end PagePress
