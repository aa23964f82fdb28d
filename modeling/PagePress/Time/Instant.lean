/-
  PagePress.Time.Instant

  Points in time, and the time between them.

  An instant counts seconds from the start of 1970 in universal time, without
  leap seconds.  An instant in a leap second belongs to the second before it
  and has a billion nanoseconds or more.
-/

import PagePress.Time.Calendar

namespace PagePress

structure Instant where
  seconds : Int
  nanos : Nat
  deriving DecidableEq

namespace Instant

def secondsPerDay : Nat := 86400

def nanosPerSecond : Nat := 1000000000

/-- Midnight at the start of a day. -/
def ofDay (day : Int) : Instant := ⟨day * secondsPerDay, 0⟩

/-- The number of seconds that have passed on the day of an instant. -/
def secondOfDay (i : Instant) : Int := i.seconds % secondsPerDay

/-- Whether an instant lies in a leap second. -/
def isLeap (i : Instant) : Bool := nanosPerSecond ≤ i.nanos

/-- The seconds by which leap seconds change the time between two instants. -/
def leapSeconds (later earlier : Instant) : Int :=
  -- A leap second that was passed counts; the times of day tell which one was.
  if earlier.secondOfDay < later.secondOfDay && earlier.isLeap then 1
  else if later.secondOfDay < earlier.secondOfDay && later.isLeap then -1
  else 0

/-- The nanoseconds from one instant to another; negative if the other comes first. -/
def since (later earlier : Instant) : Int :=
  (later.seconds - earlier.seconds + leapSeconds later earlier) * nanosPerSecond +
    (later.nanos - earlier.nanos)

end Instant

end PagePress
