/-
  PagePress.Rules.Check

  Consistency of rule sets.

  A rule set is consistent when no band is empty, every weight is a number
  that is not negative, ratios lie between 0 and 1, stretches and the heading
  mark are not empty, and a page does not become outdated before it stops
  being fresh.
-/

import PagePress.Decimal.Layout
import PagePress.Rules.Basic

namespace PagePress

/-- A cause for which a rule set is inconsistent. -/
inductive RuleFault where
  /-- The band of lengths of a page type is empty. -/
  | emptyLength (type : Text) (band : Band)
  /-- The band of questions of a page type is empty. -/
  | emptyFaq (type : Text) (band : Band)
  /-- A weight is negative or no number. -/
  | badWeight (part : Text) (weight : Float)
  /-- The score that is needed is no ratio. -/
  | badThreshold (x : Float)
  /-- Stretches of no characters would be compared. -/
  | emptyStretch
  /-- The overlap that is accepted is no ratio. -/
  | badOverlap (x : Float)
  /-- A page would be outdated before it stops being fresh. -/
  | badFreshness (freshDays staleDays : Int)
  /-- Every line would be a heading. -/
  | emptyHeading

namespace RuleFault

/-- The statement that the least count of a band is greater than the other one. -/
def bandMessage (type part : Text) (b : Band) : Text :=
  "types." ++ type ++ "." ++ part ++ ": min " ++ Text.ofNat b.least ++ " is greater than max " ++
    Text.ofNat b.most

def message : RuleFault → Text
  | emptyLength type band => bandMessage type "length" band
  | emptyFaq type band => bandMessage type "faq" band
  | badWeight part weight =>
    "scoring.weights." ++ part ++ " must be a non-negative number, got " ++
      Decimal.plain.write weight
  | badThreshold x =>
    "scoring.threshold must be between 0 and 1, got " ++ Decimal.plain.write x
  | emptyStretch => "duplicate.ngram_size must be at least 1"
  | badOverlap x => "duplicate.max_overlap must be between 0 and 1, got " ++ Decimal.plain.write x
  | badFreshness freshDays staleDays =>
    "freshness.fresh_days " ++ Text.ofInt freshDays ++ " is greater than stale_days " ++
      Text.ofInt staleDays
  | emptyHeading => "structure.heading_prefix must not be empty"

end RuleFault

/-- Whether a number lies between 0 and 1. -/
def isRatio (x : Float) : Bool := 0.0 ≤ x && x ≤ 1.0

/-- Whether a number may be a weight. -/
def isWeight (x : Float) : Bool := x.isFinite && !(x < 0.0)

/-- The first fault of the rules of a page type. -/
def TypeRules.fault? (r : TypeRules) (type : Text) : Option RuleFault :=
  if r.length.most < r.length.least then some (.emptyLength type r.length)
  else if r.faq.most < r.faq.least then some (.emptyFaq type r.faq)
  else none

/-- The parts of the quality with their names, in order. -/
def Quality.named {α : Type} (q : Quality α) : List (Text × α) :=
  let part (name : Text) (x : α) : Text × α := (name, x)
  [part "coverage" q.coverage, part "freshness" q.freshness, part "structure" q.outline,
   part "originality" q.originality, part "geo_accuracy" q.geo]

/-- The first weight that may be none. -/
def Quality.fault? (weights : Quality Float) : Option RuleFault :=
  (weights.named.find? fun w => !isWeight w.2).map fun (part, weight) => .badWeight part weight

/-- A fault, if a condition holds. -/
def RuleFault.when (condition : Bool) (fault : RuleFault) : Option RuleFault :=
  if condition then some fault else none

namespace RuleSet

/-- The first fault of a rule set. -/
def fault? (r : RuleSet) : Option RuleFault :=
  (r.types.findSome? fun (name, rules) => rules.fault? name) <|>
  r.scoring.weights.fault? <|>
  RuleFault.when (!isRatio r.scoring.threshold) (.badThreshold r.scoring.threshold) <|>
  RuleFault.when (r.overlap.stretch == 0) .emptyStretch <|>
  RuleFault.when (!isRatio r.overlap.most) (.badOverlap r.overlap.most) <|>
  RuleFault.when (decide (r.freshness.staleDays < r.freshness.freshDays))
    (.badFreshness r.freshness.freshDays r.freshness.staleDays) <|>
  RuleFault.when r.outline.heading.isEmpty .emptyHeading

end RuleSet

end PagePress
