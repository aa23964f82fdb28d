/-
  PagePress.Time.Timestamp

  Reading points in time from text.

  A timestamp has a date, a time of day and the offset of a time zone, as in
  `2025-05-20T09:00:00+09:00`.  A date alone, as in `2025-5-20`, stands for
  midnight in universal time.
-/

import PagePress.Text.Blank
import PagePress.Time.Instant

namespace PagePress

namespace Timestamp

/-- A reader of the start of a text: a result and what follows it. -/
abbrev Reader (α : Type) := Text → Option (α × Text)

/-! ## Parts -/

/-- A number of some digits, as many as there are between two bounds. -/
def number? (least most : Nat) (t : Text) : Option (Nat × Text) :=
  let digits := (t.take most).takeWhile Text.isDigit
  if digits.length < least then none
  else some (Text.natOfDigits digits, t.drop digits.length)

/-- A number of exactly so many digits within bounds. -/
def fixedNumber? (count low high : Nat) (t : Text) : Option (Nat × Text) := do
  let (n, rest) ← number? count count t
  if low ≤ n ∧ n ≤ high then some (n, rest) else none

/-- What follows a given character. -/
def after? (c : Char) : Text → Option Text
  | [] => none
  | d :: ds => if d = c then some ds else none

/-- The nanoseconds of a fraction of a second, if there is one; digits after the ninth do not
    count. -/
def fraction? : Reader Nat
  | '.' :: cs =>
    match cs.takeWhile Text.isDigit with
    | [] => none
    | digits =>
      let kept := digits.take 9
      some (Text.natOfDigits kept * Nat.pow 10 (9 - kept.length), cs.dropWhile Text.isDigit)
  | cs => some (0, cs)

/-- The sign of an offset: a plus sign, a hyphen or a minus sign. -/
def offsetSign? : Reader Int
  | '+' :: cs => some (1, cs)
  | '-' :: cs => some (-1, cs)
  | '−' :: cs => some (-1, cs)
  | _ => none

/-- The seconds by which a time zone is ahead of universal time. -/
def offset? : Reader Int
  | 'Z' :: cs => some (0, cs)
  | 'z' :: cs => some (0, cs)
  | cs => do
    let (sign, t) ← offsetSign? cs
    let (hours, t) ← fixedNumber? 2 0 23 t
    let t ← after? ':' t
    let (minutes, t) ← fixedNumber? 2 0 59 t
    return (sign * (hours * 3600 + minutes * 60 : Nat), t)

/-! ## Timestamps -/

/-- The day of a date with a year of four digits, a month and a day of two. -/
def day? (t : Text) : Option (Int × Text) := do
  let (year, t) ← number? 4 4 t
  let t ← after? '-' t
  let (month, t) ← number? 2 2 t
  let t ← after? '-' t
  let (day, t) ← number? 2 2 t
  if isDate year month day then some (dayNumber year month day, t) else none

/-- What follows the mark between date and time. -/
def afterDate? : Text → Option Text
  | 'T' :: cs => some cs
  | 't' :: cs => some cs
  | ' ' :: cs => some cs
  | _ => none

/-- The seconds and nanoseconds of a time of day. -/
def timeOfDay? (t : Text) : Option (Instant × Text) := do
  let (hour, t) ← fixedNumber? 2 0 23 t
  let t ← after? ':' t
  let (minute, t) ← fixedNumber? 2 0 59 t
  let t ← after? ':' t
  let (second, t) ← fixedNumber? 2 0 60 t
  let (nanos, t) ← fraction? t
  let start : Nat := hour * 3600 + minute * 60
  -- Second 60 is a leap second, part of the second before it.
  let time : Instant :=
    if second = 60 then ⟨start + 59, Instant.nanosPerSecond + nanos⟩ else ⟨start + second, nanos⟩
  return (time, t)

/-- Reads a timestamp with date, time and offset. -/
def full? (t : Text) : Option Instant := do
  let (day, t) ← day? t
  let t ← afterDate? t
  let (time, t) ← timeOfDay? t
  let (offset, t) ← offset? t
  if t.isEmpty then
    some { time with seconds := (Instant.ofDay day).seconds + time.seconds - offset }
  else none

/-! ## Dates -/

/-- The years of the dates that can be read. -/
def isYear (year : Int) : Bool := -262143 ≤ year && year ≤ 262142

/-- A year: up to four digits, or any number of them after a sign. -/
def year? (t : Text) : Option (Int × Text) :=
  match t with
  | '-' :: cs => (number? 1 cs.length cs).map fun (n, rest) => (-(n : Int), rest)
  | '+' :: cs => (number? 1 cs.length cs).map fun (n, rest) => ((n : Int), rest)
  | cs => (number? 1 4 cs).map fun (n, rest) => ((n : Int), rest)

/-- Reads a date; blanks may stand before each of its numbers. -/
def date? (t : Text) : Option Instant := do
  let (year, t) ← year? (Text.trimStart t)
  let t ← after? '-' t
  let (month, t) ← number? 1 2 (Text.trimStart t)
  let t ← after? '-' t
  let (day, t) ← number? 1 2 (Text.trimStart t)
  if t.isEmpty && isYear year && isDate year month day then
    some (Instant.ofDay (dayNumber year month day))
  else none

end Timestamp

/-- Reads a timestamp or a date, blanks around it aside. -/
def Instant.ofText? (t : Text) : Option Instant :=
  let t := Text.trim t
  Timestamp.full? t <|> Timestamp.date? t

end PagePress
