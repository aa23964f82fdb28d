/-
  PagePress.Page.Quality

  The quality of a page and its score.

  Each of the five parts lies between 0 and 1: how many of the required
  fields are filled, how recent the data is, how complete the outline is, how
  varied the words are, and how well the place is described.  The score is
  their weighted sum.  Sums are taken from left to right, in doubles.
-/

import PagePress.Page.Link
import PagePress.Page.Measure
import PagePress.Rules.Basic
import PagePress.Time.Timestamp
import PagePress.Variable.Context

namespace PagePress

/-- Whether the variable at a path fills a field. -/
def Context.fills (c : Context) (path : Text) : Bool := (c.dotted? path).any Value.present

namespace Page

/-- The number between 0 and 1 that is closest to a number. -/
def clamp (x : Float) : Float := if x < 0.0 then 0.0 else if 1.0 < x then 1.0 else x

/-- The sum of the shares of what is there. -/
def credit (shares : List (Bool × Float)) : Float :=
  clamp (shares.foldl (fun sum share => if share.1 then sum + share.2 else sum) 0.0)

/-! ## Parts -/

/-- How many of the required fields are filled; all of them if none is required. -/
def coverage (required : List Text) (c : Context) : Float :=
  if required.isEmpty then 1.0
  else clamp (ratio (required.filter c.fills).length required.length)

/-- The time of the last update, if the variables tell it. -/
def updated? (c : Context) (r : FreshnessRules) : Option Instant :=
  match c.dotted? r.field with
  | some (.text t) => Instant.ofText? t
  | _ => none

/-- The longest time that is measured, in milliseconds. -/
def longestMillis : Int := Int.pow 2 63 - 1

/-- A number of days in nanoseconds, as far as that can be measured. -/
def cutoff (days : Int) : Int :=
  let millis := days * Instant.secondsPerDay * 1000
  if -longestMillis ≤ millis ∧ millis ≤ longestMillis then millis * 1000000
  -- So many days in either direction make up the longest time.
  else longestMillis * 1000000

/-- How recent the data of a page is. -/
def freshness (updated : Option Instant) (now : Instant) (r : FreshnessRules) : Float :=
  match updated with
  | none => 0.0
  | some updated =>
    let age := now.since updated
    if age ≤ cutoff r.freshDays then 1.0
    else if age ≤ cutoff r.staleDays then 0.5
    else 0.0

/-- How complete the outline of a page is. -/
def outline (content : Text) (r : OutlineRules) : Float :=
  credit
    [(decide (0 < markedLines r.heading content), 0.3),
     (decide (0 < markedLines r.question content), 0.3),
     (decide (0 < links content), 0.2),
     (hasDelimiter r.delimiter content, 0.2)]

/-- How varied the words of a page are. -/
def originality (content : Text) : Float := clamp (diversity content)

/-- How well the variables describe a place. -/
def geo (c : Context) (r : GeoRules) : Float :=
  credit
    [(c.fills r.latitude && c.fills r.longitude, 0.4),
     (c.fills r.address, 0.3),
     (c.fills r.region, 0.3)]

end Page

/-! ## Score -/

namespace Quality

/-- The quality of which nothing is known. -/
def zero : Quality Float := ⟨0.0, 0.0, 0.0, 0.0, 0.0⟩

def ofPage (content : Text) (t : TypeRules) (c : Context) (now : Instant) (r : RuleSet) :
    Quality Float where
  coverage := Page.coverage t.required c
  freshness := Page.freshness (Page.updated? c r.freshness) now r.freshness
  outline := Page.outline content r.outline
  originality := Page.originality content
  geo := Page.geo c r.geo

/-- The weighted sum of the parts. -/
def score (q weights : Quality Float) : Float :=
  weights.coverage * q.coverage + weights.freshness * q.freshness +
    weights.outline * q.outline + weights.originality * q.originality + weights.geo * q.geo

/-- What would improve each part. -/
def advice : Quality Text where
  coverage := "Fill in every required field for this content type"
  freshness := "Refresh the source data and update the timestamp"
  outline := "Add the missing structure: a heading, an FAQ section, internal links and a " ++
    "metadata block"
  originality := "Vary the wording to reduce repeated phrases"
  geo := "Add coordinates, a street address and a region code"

/-- What would improve the parts that are not perfect. -/
def suggestions (q : Quality Float) : List Text :=
  let suggest (x : Float) (t : Text) : List Text := if x < 1.0 then [t] else []
  suggest q.coverage advice.coverage ++ suggest q.freshness advice.freshness ++
    suggest q.outline advice.outline ++ suggest q.originality advice.originality ++
    suggest q.geo advice.geo

end Quality

end PagePress
