/-
  PagePress.Proofs.Gate.Repetition

  Pages that repeat their reference text.

  A page that is its own reference text overlaps it completely, and no page
  overlaps more (`Page.overlap_self`, `Page.overlap_atMost_one`).  So every rule
  set that accepts less than that reports the page, and one that accepts it
  reports none (`RuleSet.judge_repetition`).
-/

import PagePress.Proofs.Gate.Code
import PagePress.Proofs.Page.Overlap

namespace PagePress

open Double

/-! ## The check of the overlap -/

namespace Gate

variable {r : OverlapRules} {content : Text} {c : Context}

/-- A page with at least one stretch that is its own reference text is reported, unless a complete
    overlap is accepted. -/
theorem checkOverlap_self (hstretch : r.stretch ≠ 0)
    (href : (c.dotted? r.reference).bind Value.render? = some content)
    (hblank : Text.trim content ≠ []) (hlong : r.stretch ≤ content.length)
    (hmost : r.most < 1.0) :
    checkOverlap r content c = [.repetitive r.stretch r.reference 1.0 r.most] := by
  have hcomplete :
      Page.overlap (Page.stretches r.stretch content) (Page.stretches r.stretch content) = 1.0 :=
    Page.overlap_self (Page.nodup_stretches _ _) (Page.stretches_ne_nil hstretch hlong)
  rw [checkOverlap, href]
  dsimp only
  rw [if_neg (List.isEmpty_iff.not.2 hblank), hcomplete, decide_eq_true hmost]
  rfl

/-- If a complete overlap is accepted, then any is. -/
theorem checkOverlap_eq_nil (hmost : r.most = 1.0) (content : Text) (c : Context) :
    checkOverlap r content c = [] := by
  have haccepted (reference : Text) : ¬r.most <
      Page.overlap (Page.stretches r.stretch content) (Page.stretches r.stretch reference) := by
    have hle := Page.overlap_atMost_one (Page.nodup_stretches r.stretch content)
      (Page.nodup_stretches r.stretch reference)
    rw [hmost, not_lt one_nonneg hle.nonneg]
    exact hle.le
  rw [checkOverlap]
  split
  · rfl
  · next reference _ =>
      split
      · rfl
      · exact if_neg (mt of_decide_eq_true (haccepted reference))

end Gate

/-! ## Verdicts -/

/-- The guard against repetition compares the stretches of a page and of its reference text, which
    are all their parts of one length.  The overlap of two collections of different texts does not
    depend on their order, lies between 0 and 1, is 1 exactly if the collections are equal and not
    empty, and 0 exactly if they share nothing.  So under a consistent rule set that does not accept
    a complete overlap, a page that is its own reference text is found repetitive, blank and too
    short ones aside, and if it is of a known type, it is reported.  If a complete overlap is
    accepted, no page is. -/
theorem RuleSet.judge_repetition (r : RuleSet) (h : r.fault? = none) :
    let repetitive := Finding.repetitive r.overlap.stretch r.overlap.reference 1.0 r.overlap.most
    (∀ (t : Text) (n : Nat), n ≠ 0 →
      (Page.stretches n t).Nodup ∧ ∀ w, w ∈ Page.stretches n t ↔ w <:+: t ∧ w.length = n) ∧
    (∀ a b : List Text, a.Nodup → b.Nodup →
      Page.overlap a b = Page.overlap b a ∧ isRatio (Page.overlap a b) = true ∧
        (a.length < 2 ^ 53 → (Page.overlap a b = 1.0 ↔ (∀ x, x ∈ a ↔ x ∈ b) ∧ a ≠ [])) ∧
        (Page.overlap a b = 0.0 ↔ ∀ x ∈ a, x ∉ b)) ∧
    (r.overlap.most < 1.0 → ∀ (content : Text) (c : Context),
      (c.dotted? r.overlap.reference).bind Value.render? = some content →
      Text.trim content ≠ [] → r.overlap.stretch ≤ content.length →
        Gate.checkOverlap r.overlap content c = [repetitive] ∧
          ∀ (type : Text) (now : Instant), (r.typeRules? type).isSome = true →
            (r.judge content type c now).warningsWith Gate.overlapCode =
              [repetitive.toDiagnostic]) ∧
    (r.overlap.most = 1.0 → ∀ (content : Text) (c : Context),
      Gate.checkOverlap r.overlap content c = [] ∧
        ∀ (type : Text) (now : Instant),
          (r.judge content type c now).warningsWith Gate.overlapCode = []) := by
  have hstretch := (r.fault?_eq_none.1 h).stretch
  intro repetitive
  refine ⟨fun t n hn => ⟨Page.nodup_stretches n t, fun w => Page.mem_stretches_iff hn⟩,
    fun a b ha hb => ⟨Page.overlap_comm ha hb, ?_, ?_, Page.overlap_eq_zero_iff ha hb⟩, ?_, ?_⟩
  · exact (isRatio_iff _).2 (Page.overlap_atMost_one ha hb)
  · exact Page.overlap_eq_one_iff ha hb
  · intro hmost content c href hblank hlong
    have hfound := Gate.checkOverlap_self hstretch href hblank hlong hmost
    refine ⟨hfound, fun type now ht => ?_⟩
    obtain ⟨t, ht⟩ := Option.isSome_iff_exists.1 ht
    rw [judge_known ht, Verdict.warningsWith_overlap, hfound]
    rfl
  · intro hmost content c
    have hnone := Gate.checkOverlap_eq_nil hmost content c
    refine ⟨hnone, fun type now => ?_⟩
    cases ht : r.typeRules? type with
    | none =>
        -- a page of an unknown type is not checked at all
        rw [judge_unknown ht]
        rfl
    | some t =>
        rw [judge_known ht, Verdict.warningsWith_overlap, hnone]
        rfl

/-- A page that is just its name, which is as long as the stretches that are compared. -/
theorem RuleSet.judge_repetition_name :
    let c : Context := ⟨[("name".toList, .text "a c".toList)], []⟩
    let v := RuleSet.builtin.judge "a c" "event" c ⟨0, 0⟩
    RuleSet.builtin.fault? = none ∧
      v.warningsWith Gate.overlapCode =
        [(Finding.repetitive 3 "name" 1.0 0.5).toDiagnostic] := by
  intro c v
  have hfault : RuleSet.builtin.fault? = none := by decide
  obtain ⟨-, -, hrepeats, -⟩ := RuleSet.builtin.judge_repetition hfault
  have hreported := (hrepeats (by decide) "a c" c rfl (by decide) (by decide)).2
  exact ⟨hfault, hreported "event" ⟨0, 0⟩ (by decide)⟩

end PagePress
