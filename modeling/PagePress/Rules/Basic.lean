/-
  PagePress.Rules.Basic

  Rule sets: what a page of some type must be like to be published.

  Every field has a default, and the defaults together are the built-in rule
  set.
-/

import PagePress.Text.Basic

namespace PagePress

/-- An inclusive band of counts. -/
structure Band where
  least : Nat := 0
  most : Nat := Nat.pow 2 64 - 1
  deriving DecidableEq

/-- The rules for pages of one type. -/
structure TypeRules where
  /-- How many characters a page may have. -/
  length : Band := ⟨300, 5000⟩
  /-- The paths of the variables that must fill a field. -/
  required : List Text := []
  /-- How many questions a page may answer. -/
  faq : Band := ⟨0, 10⟩
  deriving DecidableEq

/-- The marks by which the outline of a page is recognised. -/
structure OutlineRules where
  /-- What a line with the main heading starts with. -/
  heading : Text := "# "
  /-- What occurs in a page with a breadcrumb trail. -/
  breadcrumb : Text := "BreadcrumbList"
  /-- What a line with a question starts with. -/
  question : Text := "Q. "
  /-- The line around a metadata block. -/
  delimiter : Text := "---"
  /-- How many internal links a page should have at least. -/
  leastLinks : Nat := 3
  deriving DecidableEq

/-- The guard against pages that repeat a reference text. -/
structure OverlapRules where
  /-- The length of the stretches of text that are compared. -/
  stretch : Nat := 3
  /-- The overlap that is still accepted. -/
  most : Float := 0.5
  /-- The path of the reference text. -/
  reference : Text := "name"

/-- The steps of the freshness score. -/
structure FreshnessRules where
  /-- The path of the time of the last update. -/
  field : Text := "updatedAt"
  /-- The age in days up to which a page is fresh. -/
  freshDays : Int := 30
  /-- The age in days up to which a page is not outdated. -/
  staleDays : Int := 90
  deriving DecidableEq

/-- The paths of the variables that tell where a place is. -/
structure GeoRules where
  latitude : Text := "latitude"
  longitude : Text := "longitude"
  address : Text := "address"
  region : Text := "regionCode"
  deriving DecidableEq

/-- The five parts of the quality of a page, or something that is given for each of them. -/
structure Quality (α : Type) where
  coverage : α
  freshness : α
  outline : α
  originality : α
  geo : α
  deriving DecidableEq

/-- The usual weights of the parts of the quality. -/
def defaultWeights : Quality Float := ⟨0.25, 0.20, 0.20, 0.15, 0.20⟩

/-- How the parts of the quality make up a score, and the score that is needed. -/
structure ScoringRules where
  weights : Quality Float := defaultWeights
  threshold : Float := 0.85

/-- The built-in page types with their rules, by name. -/
def builtinTypes : List (Text × TypeRules) :=
  let rules (name : Text) (length : Band) (required : List Text) (faq : Band) : Text × TypeRules :=
    (name, ⟨length, required, faq⟩)
  [rules "area-cluster" ⟨400, 6000⟩ ["region", "category"] ⟨2, 10⟩,
   rules "area-hub" ⟨500, 8000⟩ ["region", "regionCode"] ⟨2, 10⟩,
   rules "blog" ⟨800, 10000⟩ ["title"] ⟨0, 12⟩,
   rules "event" ⟨300, 5000⟩ ["name", "startDate", "region"] ⟨1, 8⟩,
   rules "place" ⟨300, 5000⟩ ["name", "address", "category"] ⟨2, 10⟩]

def builtinForbidden : List Text :=
  ["최고", "최초", "유일", "무조건", "100%", "완치", "특효", "부작용 없는"]

structure RuleSet where
  version : Text := "builtin"
  /-- The rules of each page type; the names of the types ascend. -/
  types : List (Text × TypeRules) := builtinTypes
  /-- The texts that must not occur in a page. -/
  forbidden : List Text := builtinForbidden
  outline : OutlineRules := {}
  overlap : OverlapRules := {}
  freshness : FreshnessRules := {}
  geo : GeoRules := {}
  scoring : ScoringRules := {}

namespace RuleSet

def builtin : RuleSet := {}

def typeRules? (r : RuleSet) (name : Text) : Option TypeRules := r.types.lookup name

def typeNames (r : RuleSet) : List Text := r.types.map (·.1)

end RuleSet

end PagePress
