/-
  PagePress.Rules.Load

  Reading rule sets from TOML.

  Whatever a document leaves out keeps its default; a table of page types
  replaces the built-in ones.  A rule set must be consistent.
-/

import PagePress.Diagnostic.Basic
import PagePress.Rules.Check
import PagePress.Toml.Document
import PagePress.Toml.Record
import PagePress.Workspace.Basic

namespace PagePress

open Toml.Value (count? dictionary? double? integer? text? texts?)

/-! ## Errors -/

/-- Why a rule set cannot be had. -/
inductive RuleError where
  | notToml
  /-- The file cannot be read as text. -/
  | unreadable (cause : ReadError)
  | invalid (fault : RuleFault)

namespace RuleError

def message : RuleError → Text
  | notToml => "Invalid rule set TOML: the text does not describe a rule set"
  | unreadable cause => "I/O error: " ++ cause.message
  | invalid fault => "Invalid rule set: " ++ fault.message

def toDiagnostic (e : RuleError) : Diagnostic :=
  (Diagnostic.coded .error "L-3-1" "Invalid Rule Set" e.message).withHint
    "Fields left out of a rule set file keep their built-in defaults"

end RuleError

/-! ## Parts -/

def Band.ofToml? (v : Toml.Value) : Option Band := do
  guard v.isRecord
  let base : Band := {}
  return {
    least := ← v.fieldOr? 0 "min" count? base.least
    most := ← v.fieldOr? 1 "max" count? base.most }

def TypeRules.ofToml? (v : Toml.Value) : Option TypeRules := do
  guard v.isRecord
  let base : TypeRules := {}
  return {
    length := ← v.fieldOr? 0 "length" Band.ofToml? base.length
    required := ← v.fieldOr? 1 "required_fields" texts? base.required
    faq := ← v.fieldOr? 2 "faq" Band.ofToml? base.faq }

def OutlineRules.ofToml? (v : Toml.Value) : Option OutlineRules := do
  guard v.isRecord
  let base : OutlineRules := {}
  return {
    heading := ← v.fieldOr? 0 "heading_prefix" text? base.heading
    breadcrumb := ← v.fieldOr? 1 "breadcrumb_marker" text? base.breadcrumb
    question := ← v.fieldOr? 2 "faq_marker" text? base.question
    delimiter := ← v.fieldOr? 3 "metadata_delimiter" text? base.delimiter
    leastLinks := ← v.fieldOr? 4 "min_internal_links" count? base.leastLinks }

def OverlapRules.ofToml? (v : Toml.Value) : Option OverlapRules := do
  guard v.isRecord
  let base : OverlapRules := {}
  return {
    stretch := ← v.fieldOr? 0 "ngram_size" count? base.stretch
    most := ← v.fieldOr? 1 "max_overlap" double? base.most
    reference := ← v.fieldOr? 2 "reference_field" text? base.reference }

def FreshnessRules.ofToml? (v : Toml.Value) : Option FreshnessRules := do
  guard v.isRecord
  let base : FreshnessRules := {}
  return {
    field := ← v.fieldOr? 0 "field" text? base.field
    freshDays := ← v.fieldOr? 1 "fresh_days" integer? base.freshDays
    staleDays := ← v.fieldOr? 2 "stale_days" integer? base.staleDays }

def GeoRules.ofToml? (v : Toml.Value) : Option GeoRules := do
  guard v.isRecord
  let base : GeoRules := {}
  return {
    latitude := ← v.fieldOr? 0 "latitude_field" text? base.latitude
    longitude := ← v.fieldOr? 1 "longitude_field" text? base.longitude
    address := ← v.fieldOr? 2 "address_field" text? base.address
    region := ← v.fieldOr? 3 "region_field" text? base.region }

def Quality.weightsOfToml? (v : Toml.Value) : Option (Quality Float) := do
  guard v.isRecord
  let base := defaultWeights
  return {
    coverage := ← v.fieldOr? 0 "coverage" double? base.coverage
    freshness := ← v.fieldOr? 1 "freshness" double? base.freshness
    outline := ← v.fieldOr? 2 "structure" double? base.outline
    originality := ← v.fieldOr? 3 "originality" double? base.originality
    geo := ← v.fieldOr? 4 "geo_accuracy" double? base.geo }

def ScoringRules.ofToml? (v : Toml.Value) : Option ScoringRules := do
  guard v.isRecord
  let base : ScoringRules := {}
  return {
    weights := ← v.fieldOr? 0 "weights" Quality.weightsOfToml? base.weights
    threshold := ← v.fieldOr? 1 "threshold" double? base.threshold }

/-! ## Rule sets -/

namespace RuleSet

/-- Reads a rule set that may be inconsistent. -/
def ofToml? (v : Toml.Value) : Option RuleSet := do
  guard v.isRecord
  let base := builtin
  return {
    version := ← v.fieldOr? 0 "version" text? base.version
    types := ← v.fieldOr? 1 "types" (dictionary? TypeRules.ofToml?) base.types
    forbidden := ← v.fieldOr? 2 "forbidden_words" texts? base.forbidden
    outline := ← v.fieldOr? 3 "structure" OutlineRules.ofToml? base.outline
    overlap := ← v.fieldOr? 4 "duplicate" OverlapRules.ofToml? base.overlap
    freshness := ← v.fieldOr? 5 "freshness" FreshnessRules.ofToml? base.freshness
    geo := ← v.fieldOr? 6 "geo" GeoRules.ofToml? base.geo
    scoring := ← v.fieldOr? 7 "scoring" ScoringRules.ofToml? base.scoring }

def ofTomlText (t : Text) : Except RuleError RuleSet :=
  match (Toml.parse? t).bind fun entries => ofToml? (.table entries) with
  | none => .error .notToml
  | some r =>
    match r.fault? with
    | some fault => .error (.invalid fault)
    | none => .ok r

/-- Reads a rule set from a file, given what reading the file gave. -/
def ofFile : Except ReadError Text → Except RuleError RuleSet
  | .error cause => .error (.unreadable cause)
  | .ok content => ofTomlText content

end RuleSet

end PagePress
