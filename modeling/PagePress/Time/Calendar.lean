/-
  PagePress.Time.Calendar

  The Gregorian calendar, extended over all years.

  Years before the first are zero and negative.  Days are counted from the
  first of January 1970.
-/

import PagePress.Text.Basic

namespace PagePress

/-- Whether a year has 366 days. -/
def isLeapYear (year : Int) : Bool := year % 4 == 0 && (year % 100 != 0 || year % 400 == 0)

def daysInMonth (year : Int) (month : Nat) : Nat :=
  if month = 2 then if isLeapYear year then 29 else 28
  else if month = 4 ∨ month = 6 ∨ month = 9 ∨ month = 11 then 30
  else 31

/-- Whether a day is in the calendar. -/
def isDate (year : Int) (month day : Nat) : Bool :=
  1 ≤ month && month ≤ 12 && 1 ≤ day && day ≤ daysInMonth year month

/-- The number of days from the start of the first year to the start of a year. -/
def daysToYear (year : Int) : Int :=
  let passed := year - 1
  365 * passed + passed / 4 - passed / 100 + passed / 400

/-- The number of days from the start of a year to the start of a month. -/
def daysToMonth (year : Int) (month : Nat) : Nat :=
  (List.range (month - 1)).foldl (fun days m => days + daysInMonth year (m + 1)) 0

/-- The number of days from the first of January 1970 to a date. -/
def dayNumber (year : Int) (month day : Nat) : Int :=
  daysToYear year - daysToYear 1970 + daysToMonth year month + day - 1

end PagePress
