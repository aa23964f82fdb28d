/-
  PagePress.Proofs.Page.Freshness

  The freshness of a page in exact ages.

  The age of a page is compared with lengths of time that are cut off at the
  longest one that can be measured.  No two instants of the calendar are so
  far apart, and the time of an update always is one
  (`Page.inCalendar_of_updated?`).  So a length that was cut off compares like
  the number of days that it stands for (`Page.le_cutoff_iff`), and the
  freshness is a step function of the exact age (`Page.freshness_steps`).
  Numbers of days that are too far below zero stand for the longest time as
  well, and there the steps are lost.
-/

import PagePress.Page.Quality
import PagePress.Proofs.Rules.Consistent
import PagePress.Proofs.Time.Calendar

namespace PagePress

/-! ## Ages -/

namespace Instant

/-- The nanoseconds from the start of 1970 to an instant, leap seconds aside. -/
def elapsed (i : Instant) : Int := i.seconds * nanosPerSecond + i.nanos

/-- An instant of the calendar outside of leap seconds. -/
structure Plain (i : Instant) : Prop where
  inCalendar : i.InCalendar
  notLeap : i.isLeap = false

instance (i : Instant) : Decidable i.Plain :=
  decidable_of_iff (i.InCalendar ∧ i.isLeap = false)
    ⟨fun h => ⟨h.1, h.2⟩, fun h => ⟨h.inCalendar, h.notLeap⟩⟩

variable {i later earlier : Instant}

theorem Plain.nanos_lt (h : i.Plain) : i.nanos < nanosPerSecond :=
  Nat.lt_of_not_le (of_decide_eq_false h.notLeap)

theorem since_eq (hlater : later.Plain) (hearlier : earlier.Plain) :
    later.since earlier = later.elapsed - earlier.elapsed := by
  have hleap : leapSeconds later earlier = 0 := by
    simp [leapSeconds, hlater.notLeap, hearlier.notLeap]
  rw [since, hleap, elapsed, elapsed]
  simp only [nanosPerSecond]
  omega

end Instant

/-! ## Cutoffs -/

namespace Page

def nanosPerDay : Int := Instant.secondsPerDay * Instant.nanosPerSecond

/-- The greatest number of days that is measured exactly. -/
def longestDays : Int := longestMillis / (Instant.secondsPerDay * 1000)

theorem longestMillis_eq : longestMillis = 9223372036854775807 := by decide

theorem longestDays_eq : longestDays = 106751991167 := by decide

/-- Instants of the calendar are not as far apart as the longest time that is measured. -/
theorem age_le_longest {updated now : Instant} (hupdated : updated.Plain) (hnow : now.Plain) :
    now.elapsed - updated.elapsed ≤ longestMillis * 1000000 := by
  have hfirst := hupdated.inCalendar.first_le
  have hlast := hnow.inCalendar.le_last
  have hnanos := hnow.nanos_lt
  rw [Instant.firstSecond_eq] at hfirst
  rw [Instant.lastSecond_eq] at hlast
  rw [longestMillis_eq, Instant.elapsed, Instant.elapsed]
  simp only [Instant.nanosPerSecond] at hnanos ⊢
  omega

/-- Cutting off at the longest time makes no difference to an age. -/
theorem le_cutoff_iff {days age : Int} (hdays : -longestDays ≤ days)
    (hage : age ≤ longestMillis * 1000000) : age ≤ cutoff days ↔ age ≤ days * nanosPerDay := by
  have hday : nanosPerDay = 86400000000000 := by decide
  rw [longestDays_eq] at hdays
  rw [hday, cutoff]
  split
  · next hmillis =>
      simp only [Instant.secondsPerDay]
      omega
  · next hmillis =>
      -- so many days are more than the longest time, which no age exceeds
      rw [longestMillis_eq] at hmillis hage ⊢
      simp only [Instant.secondsPerDay] at hmillis
      omega

/-- Days too far below zero stand for the longest time. -/
theorem cutoff_of_lt {days : Int} (hdays : days < -longestDays) :
    cutoff days = longestMillis * 1000000 := by
  rw [longestDays_eq] at hdays
  refine if_neg fun hmillis => ?_
  rw [longestMillis_eq] at hmillis
  simp only [Instant.secondsPerDay] at hmillis
  omega

/-! ## Steps -/

/-- The steps of the freshness for exact lengths of time. -/
def step (fresh stale age : Int) : Float :=
  if age ≤ fresh then 1.0 else if age ≤ stale then 0.5 else 0.0

theorem step_nonneg (fresh stale age : Int) : 0.0 ≤ step fresh stale age := by
  rw [step]
  split
  · decide
  · split <;> decide

/-- A younger page that is measured at greater lengths is at least as fresh. -/
theorem step_mono {fresh fresh' stale stale' age age' : Int} (hfresh : fresh ≤ fresh')
    (hstale : stale ≤ stale') (hage : age' ≤ age) :
    step fresh stale age ≤ step fresh' stale' age' := by
  rw [step]
  split
  · next h =>
      rw [step, if_pos (Int.le_trans hage (Int.le_trans h hfresh))]
      decide
  · split
    · next h =>
        rw [step, if_pos (Int.le_trans hage (Int.le_trans h hstale))]
        split <;> decide
    · exact step_nonneg fresh' stale' age'

/-- The freshness for exact ages. -/
def exactFreshness (updated now : Instant) (r : FreshnessRules) : Float :=
  step (r.freshDays * nanosPerDay) (r.staleDays * nanosPerDay) (now.elapsed - updated.elapsed)

variable {updated updated' now now' : Instant} {r r' : FreshnessRules}

theorem freshness_eq_exact (hfresh : -longestDays ≤ r.freshDays) (hages : r.freshDays ≤ r.staleDays)
    (hupdated : updated.Plain) (hnow : now.Plain) :
    freshness (some updated) now r = exactFreshness updated now r := by
  have hage := age_le_longest hupdated hnow
  rw [freshness, exactFreshness, step]
  simp only [Instant.since_eq hnow hupdated, le_cutoff_iff hfresh hage,
    le_cutoff_iff (Int.le_trans hfresh hages) hage]

theorem exactFreshness_mono (hfresh : r.freshDays ≤ r'.freshDays)
    (hstale : r.staleDays ≤ r'.staleDays)
    (hage : now'.elapsed - updated'.elapsed ≤ now.elapsed - updated.elapsed) :
    exactFreshness updated now r ≤ exactFreshness updated' now' r' :=
  step_mono (Int.mul_le_mul_of_nonneg_right hfresh (by decide))
    (Int.mul_le_mul_of_nonneg_right hstale (by decide)) hage

theorem freshness_of_lt (hfresh : r.freshDays < -longestDays) (hupdated : updated.Plain)
    (hnow : now.Plain) : freshness (some updated) now r = 1.0 := by
  rw [freshness]
  simp only [Instant.since_eq hnow hupdated, cutoff_of_lt hfresh]
  exact if_pos (age_le_longest hupdated hnow)

/-- The time of the last update lies in the calendar. -/
theorem inCalendar_of_updated? {c : Context} {i : Instant} (h : updated? c r = some i) :
    i.InCalendar := by
  rw [updated?] at h
  split at h
  · exact Instant.inCalendar_of_ofText? h
  · exact absurd h.symm (Option.some_ne_none _)

/-- Under a consistent rule set whose days are measured exactly, the freshness of a page is the
    step of its exact age.  So a page does not become fresher with age, nor less fresh when it may
    be older.  When the days in which a page is fresh are too far below zero to be measured, every
    page counts as fresh. -/
theorem freshness_steps (r : RuleSet) (h : r.fault? = none) (hupdated : updated.Plain)
    (hnow : now.Plain) :
    (-longestDays ≤ r.freshness.freshDays →
      freshness (some updated) now r.freshness = exactFreshness updated now r.freshness ∧
        ∀ (r' : RuleSet) (updated' now' : Instant), r'.fault? = none → updated'.Plain →
          now'.Plain → r.freshness.freshDays ≤ r'.freshness.freshDays →
          r.freshness.staleDays ≤ r'.freshness.staleDays →
          now'.elapsed - updated'.elapsed ≤ now.elapsed - updated.elapsed →
            freshness (some updated) now r.freshness ≤
              freshness (some updated') now' r'.freshness) ∧
      (r.freshness.freshDays < -longestDays →
        freshness (some updated) now r.freshness = 1.0) := by
  have hages := (r.fault?_eq_none.1 h).ages
  refine ⟨fun hmeasured => ⟨freshness_eq_exact hmeasured hages hupdated hnow, ?_⟩,
    fun hlow => freshness_of_lt hlow hupdated hnow⟩
  intro r' updated' now' h' hupdated' hnow' hfresh hstale hage
  rw [freshness_eq_exact hmeasured hages hupdated hnow,
    freshness_eq_exact (Int.le_trans hmeasured hfresh) (r'.fault?_eq_none.1 h').ages hupdated'
      hnow']
  exact exactFreshness_mono hfresh hstale hage

/-- A page that is a nanosecond too old, with days that cannot all be measured, and the days too
    far below zero. -/
theorem freshness_steps_edges :
    let r (fresh stale : Int) : RuleSet := { freshness := { freshDays := fresh, staleDays := stale } }
    (r 30 9223372036854775807).fault? = none ∧ (r (-9223372036854775808) 90).fault? = none ∧
      freshness (some ⟨0, 0⟩) ⟨2592000, 1⟩ (r 30 9223372036854775807).freshness = 0.5 ∧
      freshness (some ⟨0, 0⟩) ⟨2592000, 1⟩ (r (-9223372036854775808) 90).freshness = 1.0 := by
  intro r
  have hstart : (⟨0, 0⟩ : Instant).Plain := by decide
  have hnow : (⟨2592000, 1⟩ : Instant).Plain := by decide
  have hwide : (r 30 9223372036854775807).fault? = none := by decide
  have hlow : (r (-9223372036854775808) 90).fault? = none := by decide
  refine ⟨hwide, hlow, ?_, (freshness_steps _ hlow hstart hnow).2 (by decide)⟩
  rw [((freshness_steps _ hwide hstart hnow).1 (by decide)).1]
  decide

/-- With days too far below zero, a page of sixty days is fresh; it is less so when it may be
    thirty days old. -/
theorem exists_fresh_though_old :
    let r (fresh : Int) : RuleSet := { freshness := { freshDays := fresh } }
    let updated : Instant := ⟨0, 0⟩
    let now : Instant := ⟨5184000, 0⟩
    (r (-9223372036854775808)).fault? = none ∧ (r 30).fault? = none ∧
      updated.Plain ∧ now.Plain ∧
      exactFreshness updated now (r (-9223372036854775808)).freshness = 0.5 ∧
      freshness (some updated) now (r (-9223372036854775808)).freshness = 1.0 ∧
      freshness (some updated) now (r 30).freshness = 0.5 := by
  decide

end Page

end PagePress
