/-
  PagePress.Gate.Check

  The checks that a page goes through.

  Every check looks at the page for itself; none depends on what another one
  has found.
-/

import PagePress.Gate.Finding
import PagePress.Page.Quality

namespace PagePress.Gate

/-- A finding, if a condition holds. -/
def report (condition : Bool) (finding : Finding) : List Finding :=
  if condition then [finding] else []

/-- A count compared with a band: below it, above it, or within. -/
def compare (band : Band) (actual : Nat) (below above : Finding) : List Finding :=
  if actual < band.least then [below]
  else if band.most < actual then [above]
  else []

def checkLength (type : Text) (band : Band) (content : Text) : List Finding :=
  let actual := content.length
  compare band actual (.tooShort type band.least actual) (.tooLong type band.most actual)

def checkFields (required : List Text) (c : Context) : List Finding :=
  (required.filter fun path => !c.fills path).map Finding.missingField

/-- The first line with a word, if the word is not empty, with the number of the line. -/
def lineWith? (word : Text) (lines : List Text) : Option (Text × Nat) :=
  if word.isEmpty then none
  else (lines.zipIdx 1).find? fun line => Text.occursIn word line.1

/-- The forbidden words, each reported once. -/
def checkWords (forbidden : List Text) (content : Text) : List Finding :=
  forbidden.filterMap fun word =>
    (lineWith? word (Text.lines content)).map fun (line, number) =>
      .forbiddenWord word number line

/-- The outline: heading, breadcrumb trail and links. -/
def checkOutline (r : OutlineRules) (content : Text) : List Finding :=
  let headings := Page.markedLines r.heading content
  let links := Page.links content
  report (headings != 1) (.headingCount r.heading headings) ++
    report (!r.breadcrumb.isEmpty && !Text.occursIn r.breadcrumb content)
      (.noBreadcrumb r.breadcrumb) ++
    report (decide (links < r.leastLinks)) (.tooFewLinks r.leastLinks links)

def checkQuestions (mark : Text) (band : Band) (content : Text) : List Finding :=
  let actual := Page.markedLines mark content
  compare band actual (.tooFewQuestions band.least actual) (.tooManyQuestions band.most actual)

/-- The overlap with the reference text, if there is one that is not blank. -/
def checkOverlap (r : OverlapRules) (content : Text) (c : Context) : List Finding :=
  match (c.dotted? r.reference).bind Value.render? with
  | none => []
  | some reference =>
    if (Text.trim reference).isEmpty then []
    else
      let overlap :=
        Page.overlap (Page.stretches r.stretch content) (Page.stretches r.stretch reference)
      report (decide (r.most < overlap)) (.repetitive r.stretch r.reference overlap r.most)

/-- The findings about a page of a known type, its score aside. -/
def checkPage (r : RuleSet) (type : Text) (t : TypeRules) (content : Text) (c : Context) :
    List Finding :=
  checkLength type t.length content ++ checkFields t.required c ++
    checkWords r.forbidden content ++ checkOutline r.outline content ++
    checkQuestions r.outline.question t.faq content ++ checkOverlap r.overlap content c

end PagePress.Gate
