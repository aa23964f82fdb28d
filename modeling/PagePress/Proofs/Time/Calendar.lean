/-
  PagePress.Proofs.Time.Calendar

  The instants of the calendar.

  A date lies in its year (`dayNumber_mem_year`), so the dates of the years
  that can be read are the days between two fixed ones.  Every instant that is
  read from a text is an instant of one of these days
  (`Instant.inCalendar_of_ofText?`).
-/

import Mathlib.Algebra.Group.Nat.Defs
import Mathlib.Data.List.Induction
import PagePress.Time.Timestamp

namespace PagePress

/-! ## Days of a year -/

theorem daysToMonth_succ (year : Int) {month : Nat} (h : 1 ≤ month) :
    daysToMonth year (month + 1) = daysToMonth year month + daysInMonth year month := by
  obtain ⟨m, rfl⟩ := Nat.exists_eq_add_of_le' h
  rw [daysToMonth, daysToMonth, Nat.add_sub_cancel, Nat.add_sub_cancel, List.range_succ,
    List.foldl_append]
  rfl

theorem daysToMonth_mono (year : Int) {month month' : Nat} (h : 1 ≤ month) (hle : month ≤ month') :
    daysToMonth year month ≤ daysToMonth year month' := by
  induction hle with
  | refl => exact Nat.le_refl _
  | @step m hle ih =>
      rw [daysToMonth_succ year (Nat.le_trans h hle)]
      exact Nat.le_trans ih (Nat.le_add_right _ _)

/-- The months make up the year. -/
theorem daysToMonth_end (year : Int) :
    daysToYear year + daysToMonth year 13 = daysToYear (year + 1) := by
  have hmonths : daysToMonth year 13 = if isLeapYear year then 366 else 365 := by
    cases hleap : isLeapYear year <;> simp [daysToMonth, daysInMonth, hleap, List.range_succ]
  rw [hmonths, daysToYear, daysToYear]
  simp only [isLeapYear, Bool.and_eq_true, Bool.or_eq_true, beq_iff_eq, bne_iff_ne]
  split <;> omega

theorem daysToYear_mono {year year' : Int} (h : year ≤ year') :
    daysToYear year ≤ daysToYear year' := by
  rw [daysToYear, daysToYear]
  omega

/-- A date lies between the start of its year and the start of the next one. -/
theorem dayNumber_mem_year {year : Int} {month day : Nat} (h : isDate year month day = true) :
    daysToYear year - daysToYear 1970 ≤ dayNumber year month day ∧
      dayNumber year month day < daysToYear (year + 1) - daysToYear 1970 := by
  simp only [isDate, Bool.and_eq_true, decide_eq_true_iff] at h
  obtain ⟨⟨⟨hmonth, hmonth'⟩, hday⟩, hday'⟩ := h
  have hnext := daysToMonth_succ year hmonth
  have hend : daysToMonth year (month + 1) ≤ daysToMonth year 13 :=
    daysToMonth_mono year (Nat.le_add_left 1 month) (Nat.succ_le_succ hmonth')
  have hyear := daysToMonth_end year
  rw [dayNumber]
  omega

/-! ## Instants -/

namespace Instant

/-- The first second of the calendar. -/
def firstSecond : Int := dayNumber (-262143) 1 1 * secondsPerDay

/-- The last second of the calendar. -/
def lastSecond : Int := (dayNumber 262142 12 31 + 1) * secondsPerDay - 1

/-- An instant of a day in the years that can be read. -/
structure InCalendar (i : Instant) : Prop where
  first_le : firstSecond ≤ i.seconds
  le_last : i.seconds ≤ lastSecond

instance (i : Instant) : Decidable i.InCalendar :=
  decidable_of_iff (firstSecond ≤ i.seconds ∧ i.seconds ≤ lastSecond)
    ⟨fun h => ⟨h.1, h.2⟩, fun h => ⟨h.first_le, h.le_last⟩⟩

theorem firstSecond_eq : firstSecond = -8334601228800 := by decide

theorem lastSecond_eq : lastSecond = 8210266876799 := by decide

/-- The start of a day in the years that can be read. -/
theorem inCalendar_ofDay {year : Int} {month day : Nat} (hdate : isDate year month day = true)
    (hyear : -262143 ≤ year ∧ year ≤ 262142) : (ofDay (dayNumber year month day)).InCalendar := by
  obtain ⟨hfirst, hlast⟩ := dayNumber_mem_year hdate
  have hstart := daysToYear_mono hyear.1
  have hend : daysToYear (year + 1) ≤ daysToYear 262143 := daysToYear_mono (by omega)
  have hfirst' : firstSecond = (daysToYear (-262143) - daysToYear 1970) * secondsPerDay := by decide
  have hlast' : lastSecond = (daysToYear 262143 - daysToYear 1970) * secondsPerDay - 1 := by decide
  constructor
  · rw [hfirst', ofDay]
    simp only [secondsPerDay]
    omega
  · rw [hlast', ofDay]
    simp only [secondsPerDay]
    omega

end Instant

/-! ## Reading -/

theorem Text.natOfDigits_lt {t : Text} (h : ∀ c ∈ t, isDigit c = true) :
    natOfDigits t < 10 ^ t.length := by
  induction t using List.reverseRecOn with
  | nil => exact Nat.one_pos
  | append_singleton t c ih =>
      have hc : digitValue c ≤ 9 := by
        have hdigit := h c (List.mem_append_right t List.mem_cons_self)
        rw [isDigit, Bool.and_eq_true, decide_eq_true_iff, decide_eq_true_iff] at hdigit
        have hle : c.toNat ≤ 57 := hdigit.2
        have hzero : '0'.toNat = 48 := rfl
        rw [digitValue]
        omega
      have ht := ih fun d hd => h d (List.mem_append_left [c] hd)
      rw [natOfDigits] at ht ⊢
      rw [List.foldl_append, List.length_append, List.length_singleton, Nat.pow_succ]
      show 10 * _ + digitValue c < _
      omega

namespace Timestamp

variable {t rest : Text}

theorem number?_lt {least most n : Nat} (h : number? least most t = some (n, rest)) :
    n < 10 ^ most := by
  unfold number? at h
  simp only at h
  split at h
  · exact absurd h.symm (Option.some_ne_none _)
  · obtain ⟨rfl, -⟩ := Prod.mk.inj (Option.some.inj h)
    have hlength : ((t.take most).takeWhile Text.isDigit).length ≤ most :=
      Nat.le_trans (List.takeWhile_sublist _).length_le (List.length_take_le _ _)
    exact Nat.lt_of_lt_of_le (Text.natOfDigits_lt fun c hc => List.all_eq_true.1 List.all_takeWhile c hc)
      (Nat.pow_le_pow_right (by decide) hlength)

theorem fixedNumber?_mem {count low high n : Nat}
    (h : fixedNumber? count low high t = some (n, rest)) : low ≤ n ∧ n ≤ high := by
  obtain ⟨⟨m, u⟩, -, h⟩ := Option.bind_eq_some_iff.1 h
  simp only at h
  split at h
  · next hmem =>
      obtain ⟨rfl, -⟩ := Prod.mk.inj (Option.some.inj h)
      exact hmem
  · exact absurd h.symm (Option.some_ne_none _)

theorem offsetSign?_unit {sign : Int} (h : offsetSign? t = some (sign, rest)) :
    sign = 1 ∨ sign = -1 := by
  unfold offsetSign? at h
  split at h
  · exact .inl (Prod.mk.inj (Option.some.inj h)).1.symm
  · exact .inr (Prod.mk.inj (Option.some.inj h)).1.symm
  · exact .inr (Prod.mk.inj (Option.some.inj h)).1.symm
  · exact absurd h.symm (Option.some_ne_none _)

/-- A time zone is less than a day ahead of universal time or behind it. -/
theorem offset?_bounds {offset : Int} (h : offset? t = some (offset, rest)) :
    -86400 < offset ∧ offset < 86400 := by
  unfold offset? at h
  split at h
  · obtain ⟨rfl, -⟩ := Prod.mk.inj (Option.some.inj h)
    decide
  · obtain ⟨rfl, -⟩ := Prod.mk.inj (Option.some.inj h)
    decide
  · obtain ⟨⟨sign, t₁⟩, hsign, h⟩ := Option.bind_eq_some_iff.1 h
    obtain ⟨⟨hours, t₂⟩, hhours, h⟩ := Option.bind_eq_some_iff.1 h
    obtain ⟨t₃, -, h⟩ := Option.bind_eq_some_iff.1 h
    obtain ⟨⟨minutes, t₄⟩, hminutes, h⟩ := Option.bind_eq_some_iff.1 h
    obtain ⟨rfl, -⟩ := Prod.mk.inj (Option.some.inj h)
    have hhours := (fixedNumber?_mem hhours).2
    have hminutes := (fixedNumber?_mem hminutes).2
    obtain rfl | rfl := offsetSign?_unit hsign <;> omega

theorem timeOfDay?_bounds {time : Instant} (h : timeOfDay? t = some (time, rest)) :
    0 ≤ time.seconds ∧ time.seconds < 86400 := by
  obtain ⟨⟨hour, t₁⟩, hhour, h⟩ := Option.bind_eq_some_iff.1 h
  obtain ⟨t₂, -, h⟩ := Option.bind_eq_some_iff.1 h
  obtain ⟨⟨minute, t₃⟩, hminute, h⟩ := Option.bind_eq_some_iff.1 h
  obtain ⟨t₄, -, h⟩ := Option.bind_eq_some_iff.1 h
  obtain ⟨⟨second, t₅⟩, hsecond, h⟩ := Option.bind_eq_some_iff.1 h
  obtain ⟨⟨nanos, t₆⟩, -, h⟩ := Option.bind_eq_some_iff.1 h
  obtain ⟨rfl, -⟩ := Prod.mk.inj (Option.some.inj h)
  have hhour := (fixedNumber?_mem hhour).2
  have hminute := (fixedNumber?_mem hminute).2
  have hsecond := (fixedNumber?_mem hsecond).2
  split
  · simp only
    omega
  · simp only
    omega

theorem day?_eq_some {day : Int} (h : day? t = some (day, rest)) :
    ∃ year month dayOfMonth : Nat, year < 10 ^ 4 ∧ isDate year month dayOfMonth = true ∧
      day = dayNumber year month dayOfMonth := by
  obtain ⟨⟨year, t₁⟩, hyear, h⟩ := Option.bind_eq_some_iff.1 h
  obtain ⟨t₂, -, h⟩ := Option.bind_eq_some_iff.1 h
  obtain ⟨⟨month, t₃⟩, -, h⟩ := Option.bind_eq_some_iff.1 h
  obtain ⟨t₄, -, h⟩ := Option.bind_eq_some_iff.1 h
  obtain ⟨⟨dayOfMonth, t₅⟩, -, h⟩ := Option.bind_eq_some_iff.1 h
  simp only at h
  split at h
  · next hdate =>
      obtain ⟨rfl, -⟩ := Prod.mk.inj (Option.some.inj h)
      exact ⟨year, month, dayOfMonth, number?_lt hyear, hdate, rfl⟩
  · exact absurd h.symm (Option.some_ne_none _)

theorem inCalendar_of_full? {i : Instant} (h : full? t = some i) : i.InCalendar := by
  obtain ⟨⟨day, t₁⟩, hday, h⟩ := Option.bind_eq_some_iff.1 h
  obtain ⟨t₂, -, h⟩ := Option.bind_eq_some_iff.1 h
  obtain ⟨⟨time, t₃⟩, htime, h⟩ := Option.bind_eq_some_iff.1 h
  obtain ⟨⟨offset, t₄⟩, hoffset, h⟩ := Option.bind_eq_some_iff.1 h
  obtain ⟨year, month, dayOfMonth, hyear, hdate, rfl⟩ := day?_eq_some hday
  obtain ⟨hfirst, hlast⟩ := dayNumber_mem_year hdate
  obtain ⟨htime, htime'⟩ := timeOfDay?_bounds htime
  obtain ⟨hoffset, hoffset'⟩ := offset?_bounds hoffset
  -- Four digits leave room for the day by which time and offset may miss the date.
  have hstart : daysToYear 0 ≤ daysToYear year := daysToYear_mono (by omega)
  have hend : daysToYear (year + 1) ≤ daysToYear 10000 := daysToYear_mono (by omega)
  have hzero : daysToYear 0 - daysToYear 1970 = -719528 := by decide
  have htop : daysToYear 10000 - daysToYear 1970 = 2932897 := by decide
  simp only at h
  split at h
  · obtain rfl := Option.some.inj h
    constructor
    · rw [Instant.firstSecond_eq]
      simp only [Instant.ofDay, Instant.secondsPerDay]
      omega
    · rw [Instant.lastSecond_eq]
      simp only [Instant.ofDay, Instant.secondsPerDay]
      omega
  · exact absurd h.symm (Option.some_ne_none _)

theorem inCalendar_of_date? {i : Instant} (h : date? t = some i) : i.InCalendar := by
  obtain ⟨⟨year, t₁⟩, -, h⟩ := Option.bind_eq_some_iff.1 h
  obtain ⟨t₂, -, h⟩ := Option.bind_eq_some_iff.1 h
  obtain ⟨⟨month, t₃⟩, -, h⟩ := Option.bind_eq_some_iff.1 h
  obtain ⟨t₄, -, h⟩ := Option.bind_eq_some_iff.1 h
  obtain ⟨⟨day, t₅⟩, -, h⟩ := Option.bind_eq_some_iff.1 h
  simp only at h
  split at h
  · next hread =>
      obtain rfl := Option.some.inj h
      simp only [Bool.and_eq_true] at hread
      have hyear := hread.1.2
      rw [isYear, Bool.and_eq_true, decide_eq_true_iff, decide_eq_true_iff] at hyear
      exact Instant.inCalendar_ofDay hread.2 hyear
  · exact absurd h.symm (Option.some_ne_none _)

end Timestamp

/-- What is read from a text lies in the calendar. -/
theorem Instant.inCalendar_of_ofText? {t : Text} {i : Instant} (h : ofText? t = some i) :
    i.InCalendar := by
  rw [ofText?, Option.orElse_eq_orElse, Option.orElse_eq_or, Option.or_eq_some_iff] at h
  obtain h | ⟨-, h⟩ := h
  · exact Timestamp.inCalendar_of_full? h
  · exact Timestamp.inCalendar_of_date? h

end PagePress
