/-
  PagePress.Gate.Finding

  What can be found wrong with a page.

  A finding is an error or a warning by its kind; only errors keep a page
  from being published.
-/

import PagePress.Decimal.Layout
import PagePress.Diagnostic.Basic
import PagePress.Text.Blank

namespace PagePress

/-- A finding about a page. -/
inductive Finding where
  /-- The rule set has no such page type, only the known ones. -/
  | unknownType (type : Text) (known : List Text)
  /-- The page has fewer characters than it must have. -/
  | tooShort (type : Text) (least actual : Nat)
  /-- The page has more characters than it should have. -/
  | tooLong (type : Text) (most actual : Nat)
  /-- No variable at this path fills a field. -/
  | missingField (path : Text)
  /-- A forbidden word occurs; the first line in which it does is given with its number. -/
  | forbiddenWord (word : Text) (number : Nat) (line : Text)
  /-- The number of main headings is not one. -/
  | headingCount (mark : Text) (actual : Nat)
  | noBreadcrumb (mark : Text)
  | tooFewLinks (least actual : Nat)
  | tooFewQuestions (least actual : Nat)
  | tooManyQuestions (most actual : Nat)
  /-- The page overlaps a reference text more than is accepted. -/
  | repetitive (stretch : Nat) (reference : Text) (overlap most : Float)
  | lowScore (score threshold : Float)

namespace Finding

/-- Whether a finding blocks publication. -/
def severity : Finding → Severity
  | unknownType .. => .error
  | tooShort .. => .error
  | tooLong .. => .warning
  | missingField .. => .error
  | forbiddenWord .. => .error
  | headingCount .. => .error
  | noBreadcrumb .. => .warning
  | tooFewLinks .. => .warning
  | tooFewQuestions .. => .error
  | tooManyQuestions .. => .warning
  | repetitive .. => .warning
  | lowScore .. => .warning

def code : Finding → Text
  | tooShort .. => "L-2-1"
  | tooLong .. => "L-2-2"
  | missingField .. => "L-2-3"
  | forbiddenWord .. => "L-2-4"
  | headingCount .. => "L-2-5"
  | noBreadcrumb .. => "L-2-6"
  | tooFewLinks .. => "L-2-7"
  | tooFewQuestions .. => "L-2-8"
  | tooManyQuestions .. => "L-2-9"
  | repetitive .. => "L-2-10"
  | unknownType .. => "L-2-11"
  | lowScore .. => "L-2-12"

def title : Finding → Text
  | tooShort .. => "Content Too Short"
  | tooLong .. => "Content Too Long"
  | missingField .. => "Missing Required Field"
  | forbiddenWord .. => "Forbidden Word"
  | headingCount .. => "Heading Count"
  | noBreadcrumb .. => "Missing Breadcrumb"
  | tooFewLinks .. => "Too Few Internal Links"
  | tooFewQuestions .. => "Too Few FAQ Entries"
  | tooManyQuestions .. => "Too Many FAQ Entries"
  | repetitive .. => "Near-Duplicate Content"
  | unknownType .. => "Unknown Content Type"
  | lowScore .. => "Quality Score Below Threshold"

def problem : Finding → Text
  | tooShort type least actual =>
    "`" ++ type ++ "` content needs at least " ++ Text.ofNat least ++ " characters, found " ++
      Text.ofNat actual
  | tooLong type most actual =>
    "`" ++ type ++ "` content should stay within " ++ Text.ofNat most ++ " characters, found " ++
      Text.ofNat actual
  | missingField path => "Required field `" ++ path ++ "` is missing or empty"
  | forbiddenWord word _ _ => "Content contains the forbidden word `" ++ word ++ "`"
  | headingCount mark actual =>
    "Expected exactly one `" ++ Text.trimEnd mark ++ "` heading, found " ++ Text.ofNat actual
  | noBreadcrumb mark => "No `" ++ mark ++ "` breadcrumb marker found"
  | tooFewLinks least actual =>
    "Found " ++ Text.ofNat actual ++ " internal links, at least " ++ Text.ofNat least ++
      " recommended"
  | tooFewQuestions least actual =>
    "Found " ++ Text.ofNat actual ++ " FAQ entries, at least " ++ Text.ofNat least ++ " required"
  | tooManyQuestions most actual =>
    "Found " ++ Text.ofNat actual ++ " FAQ entries, at most " ++ Text.ofNat most ++
      " recommended"
  | repetitive stretch reference overlap most =>
    Text.ofNat stretch ++ "-gram overlap with `" ++ reference ++ "` is " ++
      Decimal.fixed 2 overlap ++ ", above " ++ Decimal.fixed 2 most
  | unknownType type _ => "No lint rules for content type `" ++ type ++ "`"
  | lowScore score threshold =>
    "Quality score " ++ Decimal.fixed 3 score ++ " is below the publish threshold " ++
      Decimal.fixed 3 threshold

def details : Finding → List Detail
  | forbiddenWord _ number line =>
    [⟨.error, "line " ++ Text.ofNat number ++ ": " ++ Text.trim line⟩]
  | unknownType _ known => [⟨.info, "Known types: " ++ List.intercalate ", ".toList known⟩]
  | _ => []

def toDiagnostic (f : Finding) : Diagnostic :=
  { Diagnostic.coded f.severity f.code f.title f.problem with details := f.details }

end Finding

end PagePress
