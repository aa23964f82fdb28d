/-
  PagePress.Toml.Scalar

  Numbers, truth values, dates and times in TOML text.

  Digits may be grouped with underscores, each between two digits.  An
  integer must fit 64 bits with a sign.  A float is the double nearest to its
  decimal; one that is too large is refused, unless it is negative.
-/

import PagePress.Decimal.Binary
import PagePress.Time.Calendar
import PagePress.Toml.Lexeme

namespace PagePress.Toml

/-! ## Digits -/

/-- The digits, of a kind given by a test, that a text starts with, without the underscores among
    them; given a bound on their number. -/
def groupedFrom? (isDigit : Char → Bool) : Nat → Reader Text
  | 0, _ => none
  | n + 1, t =>
    match t with
    -- Every underscore must be followed by a digit.
    | '_' :: c :: cs =>
      if isDigit c then do
        let (digits, rest) ← groupedFrom? isDigit n cs
        return (c :: digits, rest)
      else none
    | '_' :: [] => none
    | c :: cs =>
      if isDigit c then do
        let (digits, rest) ← groupedFrom? isDigit n cs
        return (c :: digits, rest)
      else some ([], c :: cs)
    | [] => some ([], [])

/-- At least one digit, with underscores between digits. -/
def grouped? (isDigit : Char → Bool) : Reader Text
  | c :: cs =>
    if isDigit c then do
      let (digits, rest) ← groupedFrom? isDigit (cs.length + 1) cs
      return (c :: digits, rest)
    else none
  | [] => none

/-- The sign that a text may start with; whether it is a minus sign. -/
def sign? : Text → Bool × Text
  | '-' :: cs => (true, cs)
  | '+' :: cs => (false, cs)
  | cs => (false, cs)

/-- The whole part of a decimal number: zero alone, or digits that start with none. -/
def decimalDigits? : Reader Text
  | '0' :: cs => some (['0'], cs)
  | cs => grouped? Text.isDigit cs

/-! ## Numbers -/

/-- A size with a sign, if it fits 64 bits. -/
def signed? (negative : Bool) (size : Nat) : Option Value :=
  if negative then if size ≤ Nat.pow 2 63 then some (.integer (-size)) else none
  else if size < Nat.pow 2 63 then some (.integer size) else none

def decimalInteger? (t : Text) : Option (Value × Text) := do
  let (negative, t) := sign? t
  let (digits, rest) ← decimalDigits? t
  return (← signed? negative (Text.natOfDigits digits), rest)

/-- An integer in another base, its mark already read. -/
def basedInteger? (base : Nat) (t : Text) : Option (Value × Text) := do
  let isDigit (c : Char) : Bool := (Text.hexValue? c).any (· < base)
  let (digits, rest) ← grouped? isDigit t
  let size := digits.foldl (fun n c => base * n + (Text.hexValue? c).getD 0) 0
  return (← signed? false size, rest)

def integer? : Reader Value
  | '0' :: 'x' :: cs => basedInteger? 16 cs
  | '0' :: 'o' :: cs => basedInteger? 8 cs
  | '0' :: 'b' :: cs => basedInteger? 2 cs
  | cs => decimalInteger? cs

/-- The places after a point. -/
def places? : Text → Option (Text × Text)
  | '.' :: cs => grouped? Text.isDigit cs
  | cs => some ([], cs)

/-- An exponent; zero if there is none. -/
def power? : Text → Option (Int × Text)
  | c :: cs =>
    if c = 'e' ∨ c = 'E' then do
      let (negative, cs) := sign? cs
      let (digits, rest) ← grouped? Text.isDigit cs
      let size : Int := Text.natOfDigits digits
      return (if negative then -size else size, rest)
    else some (0, c :: cs)
  | [] => some (0, [])

/-- The double with a sign, whole digits, places and a power of ten. -/
def floatOf (negative : Bool) (whole places : Text) (power : Int) : Float :=
  let size := Decimal.nearestDecimal (Text.natOfDigits (whole ++ places)) (power - places.length)
  if negative then -size else size

/-- Whether a text continues with what makes a number a float. -/
def continuesFloat : Text → Bool
  | c :: _ => c == '.' || c == 'e' || c == 'E'
  | [] => false

/-- A number: a float if a point or an exponent follows its whole part, else an integer. -/
def number? (t : Text) : Option (Value × Text) := do
  let (negative, body) := sign? t
  match decimalDigits? body with
  | some (whole, rest) =>
    if continuesFloat rest then do
      let (places, rest) ← places? rest
      let (power, rest) ← power? rest
      let x := floatOf negative whole places power
      if x == 1.0 / 0.0 then none else return (.float x, rest)
    else integer? t
  | none =>
    match body with
    | 'i' :: 'n' :: 'f' :: rest =>
      return (.float (if negative then -(1.0 / 0.0) else 1.0 / 0.0), rest)
    | 'n' :: 'a' :: 'n' :: rest => return (.float (0.0 / 0.0), rest)
    | _ => none

/-! ## Dates and times -/

/-- A number of exactly so many digits. -/
def fixedDigits? (count : Nat) (t : Text) : Option (Nat × Text) :=
  let digits := t.take count
  if digits.length = count ∧ digits.all Text.isDigit then
    some (Text.natOfDigits digits, t.drop count)
  else none

def skipDate? (t : Text) : Option Text := do
  let (year, t) ← fixedDigits? 4 t
  let '-' :: t := t | none
  let (month, t) ← fixedDigits? 2 t
  let '-' :: t := t | none
  let (day, t) ← fixedDigits? 2 t
  if isDate year month day then some t else none

/-- What follows the fraction of a second, if there is one. -/
def skipFraction? : Text → Option Text
  | '.' :: cs =>
    match cs.takeWhile Text.isDigit with
    | [] => some ('.' :: cs)
    | _ => some (cs.dropWhile Text.isDigit)
  | cs => some cs

/-- What follows a time of day. -/
def skipTime? (t : Text) : Option Text := do
  let (hour, t) ← fixedDigits? 2 t
  let ':' :: t := t | none
  let (minute, t) ← fixedDigits? 2 t
  let ':' :: t := t | none
  let (second, t) ← fixedDigits? 2 t
  if hour ≤ 23 ∧ minute ≤ 59 ∧ second ≤ 60 then skipFraction? t else none

/-- What follows the offset of a time zone, if there is one. -/
def skipOffset? : Text → Option Text
  | c :: cs =>
    if c = 'Z' ∨ c = 'z' then some cs
    else if c = '+' ∨ c = '-' then do
      let (hour, cs) ← fixedDigits? 2 cs
      let ':' :: cs := cs | none
      let (minute, cs) ← fixedDigits? 2 cs
      if hour ≤ 23 ∧ minute ≤ 59 then some cs else none
    else some (c :: cs)
  | [] => some []

/-- What follows a date with or without a time after it. -/
def skipDateTime? (t : Text) : Option Text := do
  let rest ← skipDate? t
  match rest with
  | c :: cs =>
    if c = 'T' ∨ c = 't' ∨ c = ' ' then
      match skipTime? cs with
      | some afterTime => skipOffset? afterTime
      | none => some rest
    else some rest
  | [] => some rest

/-- Whether a text starts like a date: with four digits and a hyphen. -/
def startsDate (t : Text) : Bool :=
  (t.take 4).length == 4 && (t.take 4).all Text.isDigit && (t.drop 4).head? == some '-'

/-- Whether a text starts like a time: with two digits and a colon. -/
def startsTime (t : Text) : Bool :=
  (t.take 2).length == 2 && (t.take 2).all Text.isDigit && (t.drop 2).head? == some ':'

def dateTime? (t : Text) : Option (Value × Text) := do
  let rest ← if startsDate t then skipDateTime? t else skipTime? t
  return (.dateTime (t.take (t.length - rest.length)), rest)

def numberOrDate? (t : Text) : Option (Value × Text) :=
  if startsDate t || startsTime t then dateTime? t else number? t

end PagePress.Toml
