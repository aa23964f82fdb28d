/-
  PagePress.Gate.Verdict

  The verdict on a page.

  A page may be published when nothing found is an error and its score
  reaches the threshold.
-/

import PagePress.Diagnostic.Codec
import PagePress.Gate.Check
import PagePress.Template.Render

namespace PagePress

structure Verdict where
  isValid : Bool
  score : Float
  quality : Quality Float
  errors : List Diagnostic
  warnings : List Diagnostic
  suggestions : List Text

namespace Verdict

/-- The diagnostics of the findings of a severity, in order. -/
def select (severity : Severity) (findings : List Finding) : List Diagnostic :=
  (findings.filter fun f => f.severity == severity).map Finding.toDiagnostic

/-- The verdict on a page of a type that has no rules. -/
def ofUnknownType (type : Text) (known : List Text) : Verdict where
  isValid := false
  score := 0.0
  quality := Quality.zero
  errors := [(Finding.unknownType type known).toDiagnostic]
  warnings := []
  suggestions := []

/-- The verdict that findings and a quality lead to. -/
def ofFindings (findings : List Finding) (quality : Quality Float) (r : ScoringRules) : Verdict :=
  let score := quality.score r.weights
  let findings :=
    findings ++ Gate.report (decide (score < r.threshold)) (.lowScore score r.threshold)
  let errors := select .error findings
  { isValid := errors.isEmpty && decide (r.threshold ≤ score)
    score := score
    quality := quality
    errors := errors
    warnings := select .warning findings
    suggestions := quality.suggestions }

def errorCodes (v : Verdict) : List Text := v.errors.filterMap (·.code)

def warningCodes (v : Verdict) : List Text := v.warnings.filterMap (·.code)

def qualityToJson (q : Quality Float) : Json :=
  let part (name : Text) (x : Float) : Text × Json := Json.member name (.number (.real x))
  .object [part "coverage" q.coverage, part "freshness" q.freshness, part "structure" q.outline,
    part "originality" q.originality, part "geoAccuracy" q.geo]

def toJson (v : Verdict) : Json :=
  .object [Json.member "isValid" (.bool v.isValid),
    Json.member "score" (.number (.real v.score)),
    Json.member "breakdown" (qualityToJson v.quality),
    Json.member "errors" (.array (v.errors.map Diagnostic.toJson)),
    Json.member "warnings" (.array (v.warnings.map Diagnostic.toJson)),
    Json.member "suggestions" (.array (v.suggestions.map Json.string))]

end Verdict

/-- The name of a page type without the blanks around it. -/
def pageType (name : Text) : Text := Text.trim name

namespace RuleSet

/-- The verdict on a page, as seen at some time. -/
def judge (r : RuleSet) (content type : Text) (c : Context) (now : Instant) : Verdict :=
  match r.typeRules? type with
  | none => .ofUnknownType type r.typeNames
  | some t =>
    .ofFindings (Gate.checkPage r type t content c) (.ofPage content t c now r) r.scoring

/-- The verdict on a rendered page; what the rendering reported joins the warnings. -/
def judgeReport (r : RuleSet) (report : Report) (type : Text) (c : Context) (now : Instant) :
    Verdict :=
  let v := r.judge report.text type c now
  { v with warnings := v.warnings ++ report.diagnostics }

end RuleSet

end PagePress
