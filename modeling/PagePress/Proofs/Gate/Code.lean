/-
  PagePress.Proofs.Gate.Code

  Findings by their code.

  Three checks of a page have a code of their own: those of the fields, of the
  words and of the overlap (`Gate.filter_checkPage`).  What a verdict says with
  such a code is what the check has found (`Verdict.errorsWith_field`,
  `Verdict.errorsWith_word`, `Verdict.warningsWith_overlap`).
-/

import PagePress.Proofs.Gate.Verdict

namespace PagePress

namespace Gate

/-- The code of reports on missing fields. -/
def fieldCode : Text := "L-2-3"

/-- The code of reports on forbidden words. -/
def wordCode : Text := "L-2-4"

/-- The code of reports on overlap. -/
def overlapCode : Text := "L-2-10"

/-- The codes of the checks that have more than one. -/
def sharedCodes : List Text :=
  ["L-2-1", "L-2-2", "L-2-5", "L-2-6", "L-2-7", "L-2-8", "L-2-9"]

section

variable {code : Text} {fs : List Finding}

theorem filter_code_eq_nil {codes : List Text} (h : ∀ f ∈ fs, f.code ∈ codes)
    (hcode : code ∉ codes) : (fs.filter fun f => f.code == code) = [] :=
  List.filter_eq_nil_iff.2 fun f hf heq => hcode (eq_of_beq heq ▸ h f hf)

/-- Findings with one code are all there under this code and not there under another one. -/
theorem filter_code {own : Text} (h : ∀ f ∈ fs, f.code = own) :
    (fs.filter fun f => f.code == code) = if code = own then fs else [] := by
  split
  · next heq => exact List.filter_eq_self.2 fun f hf => beq_iff_eq.2 ((h f hf).trans heq.symm)
  · next hne => exact filter_code_eq_nil (fun f hf => List.mem_singleton.2 (h f hf)) (by simpa)

end

/-- What is found about a page with a code that only one check has. -/
theorem filter_checkPage (r : RuleSet) (type : Text) (t : TypeRules) (content : Text) (c : Context)
    {code : Text} (hcode : code ∉ sharedCodes) :
    ((checkPage r type t content c).filter fun f => f.code == code) =
      (if code = fieldCode then checkFields t.required c else []) ++
        (if code = wordCode then checkWords r.forbidden content else []) ++
          if code = overlapCode then checkOverlap r.overlap content c else [] := by
  have hnone {fs : List Finding} {codes : List Text} (hcodes : codes ⊆ sharedCodes)
      (h : ∀ f ∈ fs, f.code ∈ codes) : (fs.filter fun f => f.code == code) = [] :=
    filter_code_eq_nil h fun hmem => hcode (hcodes hmem)
  rw [checkPage]
  simp only [List.filter_append]
  rw [filter_code fun f => code_checkFields, filter_code fun f => code_checkWords,
    filter_code fun f => code_checkOverlap,
    hnone (by decide) fun f => code_checkLength,
    hnone (by decide) fun f => code_checkOutline,
    hnone (by decide) fun f => code_checkQuestions]
  simp only [List.nil_append, List.append_nil]
  rfl

end Gate

namespace Verdict

/-- The errors with a code, in order. -/
def errorsWith (v : Verdict) (code : Text) : List Diagnostic :=
  v.errors.filter fun d => d.code == some code

/-- The warnings with a code, in order. -/
def warningsWith (v : Verdict) (code : Text) : List Diagnostic :=
  v.warnings.filter fun d => d.code == some code

theorem filter_select (severity : Severity) (fs : List Finding) (code : Text) :
    ((select severity fs).filter fun d => d.code == some code) =
      select severity (fs.filter fun f => f.code == code) := by
  rw [select, select, List.filter_map, List.filter_filter, List.filter_filter]
  exact congrArg _ (List.filter_congr fun f _ => Bool.and_comm _ _)

/-- All findings with a code have the severity that the code belongs to. -/
theorem select_filter_code {severity : Severity} {code : Text}
    (hcode : code ∈ Finding.codes severity) (fs : List Finding) :
    select severity (fs.filter fun f => f.code == code) =
      (fs.filter fun f => f.code == code).map Finding.toDiagnostic := by
  have hall : ∀ f ∈ fs.filter fun f => f.code == code, (f.severity == severity) = true := by
    intro f hf
    have hown : f.code = code := eq_of_beq (List.mem_filter.1 hf).2
    apply beq_iff_eq.2
    apply Finding.severity_of_code
    rw [hown]
    exact hcode
  rw [select, List.filter_eq_self.2 hall]

section

variable (findings : List Finding) (q : Quality Float) (r : ScoringRules) {code : Text}

/-- Under another code than its own, the report on the score does not count. -/
theorem filter_findings (hcode : code ≠ Finding.scoreCode) (low : Bool) (x y : Float) :
    ((findings ++ Gate.report low (.lowScore x y)).filter fun f => f.code == code) =
      findings.filter fun f => f.code == code := by
  have hscore : ∀ f ∈ Gate.report low (.lowScore x y), f.code = Finding.scoreCode := by
    intro f hf
    rw [Gate.mem_report hf]
    rfl
  rw [List.filter_append, Gate.filter_code hscore, if_neg hcode, List.append_nil]

theorem errorsWith_ofFindings (hcode : code ∈ Finding.codes .error) :
    (ofFindings findings q r).errorsWith code =
      (findings.filter fun f => f.code == code).map Finding.toDiagnostic := by
  have hscore : code ≠ Finding.scoreCode := by
    rintro rfl
    exact absurd hcode (by decide)
  show (select .error (findings ++ Gate.report _ _)).filter _ = _
  rw [filter_select, filter_findings findings hscore, select_filter_code hcode]

theorem warningsWith_ofFindings (hcode : code ∈ Finding.codes .warning)
    (hscore : code ≠ Finding.scoreCode) :
    (ofFindings findings q r).warningsWith code =
      (findings.filter fun f => f.code == code).map Finding.toDiagnostic := by
  show (select .warning (findings ++ Gate.report _ _)).filter _ = _
  rw [filter_select, filter_findings findings hscore, select_filter_code hcode]

end

section

variable (r : RuleSet) (type : Text) (t : TypeRules) (content : Text) (c : Context)
  (q : Quality Float)

theorem errorsWith_field :
    (ofFindings (Gate.checkPage r type t content c) q r.scoring).errorsWith Gate.fieldCode =
      (Gate.checkFields t.required c).map Finding.toDiagnostic := by
  have hfields : ((Gate.checkPage r type t content c).filter fun f => f.code == Gate.fieldCode) =
      Gate.checkFields t.required c :=
    (Gate.filter_checkPage r type t content c (by decide)).trans
      ((List.append_nil _).trans (List.append_nil _))
  rw [errorsWith_ofFindings _ _ _ (by decide), hfields]

theorem errorsWith_word :
    (ofFindings (Gate.checkPage r type t content c) q r.scoring).errorsWith Gate.wordCode =
      (Gate.checkWords r.forbidden content).map Finding.toDiagnostic := by
  have hwords : ((Gate.checkPage r type t content c).filter fun f => f.code == Gate.wordCode) =
      Gate.checkWords r.forbidden content :=
    (Gate.filter_checkPage r type t content c (by decide)).trans (List.append_nil _)
  rw [errorsWith_ofFindings _ _ _ (by decide), hwords]

theorem warningsWith_overlap :
    (ofFindings (Gate.checkPage r type t content c) q r.scoring).warningsWith Gate.overlapCode =
      (Gate.checkOverlap r.overlap content c).map Finding.toDiagnostic := by
  have hoverlap :
      ((Gate.checkPage r type t content c).filter fun f => f.code == Gate.overlapCode) =
        Gate.checkOverlap r.overlap content c :=
    Gate.filter_checkPage r type t content c (by decide)
  rw [warningsWith_ofFindings _ _ _ (by decide) (by decide), hoverlap]

end

end Verdict

end PagePress
