/-
  PagePress.Json.Lexeme

  The lexemes of JSON text: punctuation, names, numbers and strings.

  Between lexemes stand only spaces, tabs, newlines and carriage returns.
  A number is read as an integer when it is written without point and
  exponent and fits 64 bits (signed below zero, unsigned above); minus zero
  and every other number is a double.
-/

import PagePress.Json.Value

namespace PagePress.Json

inductive Lexeme where
  | openObject
  | closeObject
  | openArray
  | closeArray
  | colon
  | comma
  | null
  | bool (b : Bool)
  | number (n : Number)
  | string (t : Text)
  /-- A string that is well-formed but for half a surrogate pair, which stands for no text. -/
  | brokenString

/-! ## Numbers -/

/-- The largest number that the digits of a significand are gathered into. -/
def significandLimit : Nat := Nat.pow 2 64 - 1

/-- Gathers digits into a significand while it stays within its limit; the result also tells how
    many digits were taken. -/
def gather (significand : Nat) : Text → Nat × Nat
  | [] => (significand, 0)
  | c :: cs =>
    let next := 10 * significand + Text.digitValue c
    -- From the first digit that does not fit on, all are left out.
    if significandLimit < next then (significand, 0)
    else
      let (final, taken) := gather next cs
      (final, taken + 1)

/-- A number literal in its parts; `exponent` is the written one, zero if there is none. -/
structure Literal where
  negative : Bool
  whole : Text
  fraction : Option Text
  exponent : Option Int

/-- The double that a literal stands for; infinite where it is out of range. -/
def Literal.toFloat (l : Literal) : Float :=
  let (whole, taken) := gather 0 l.whole
  let dropped := l.whole.length - taken
  let (significand, places) := gather whole (l.fraction.getD [])
  -- A whole digit that was left out counts as a power of ten, a place that was taken against one.
  let exponent : Int := (dropped : Int) - places + l.exponent.getD 0
  let size := (Decimal.scaledDecimal significand exponent).getD (1.0 / 0.0)
  if l.negative then -size else size

def Literal.toNumber (l : Literal) : Number :=
  let size := Text.natOfDigits l.whole
  match l.fraction, l.exponent with
  | none, none =>
    if l.negative then
      -- Minus zero keeps its sign only as a double.
      if 0 < size ∧ size ≤ Nat.pow 2 63 then .integer (-size) else .real l.toFloat
    else if size ≤ significandLimit then .integer size
    else .real l.toFloat
  | _, _ => .real l.toFloat

/-- The digits that a text starts with, if there are any, and what follows them. -/
def digits? (t : Text) : Option (Text × Text) :=
  match t.takeWhile Text.isDigit with
  | [] => none
  | ds => some (ds, t.dropWhile Text.isDigit)

/-- The whole part of a literal: zero alone, or digits that start with none. -/
def whole? : Text → Option (Text × Text)
  | '0' :: cs => some (['0'], cs)
  | cs => digits? cs

/-- The fraction of a literal, if it has one; a point must be followed by digits. -/
def fraction? : Text → Option (Option Text × Text)
  | '.' :: cs => (digits? cs).map fun (ds, rest) => (some ds, rest)
  | cs => some (none, cs)

/-- The digits of an exponent with its sign. -/
def signedExponent? : Text → Option (Int × Text)
  | '-' :: cs => (digits? cs).map fun (ds, rest) => (-(Text.natOfDigits ds : Int), rest)
  | '+' :: cs => (digits? cs).map fun (ds, rest) => ((Text.natOfDigits ds : Int), rest)
  | cs => (digits? cs).map fun (ds, rest) => ((Text.natOfDigits ds : Int), rest)

def exponent? : Text → Option (Option Int × Text)
  | c :: cs =>
    if c = 'e' ∨ c = 'E' then (signedExponent? cs).map fun (n, rest) => (some n, rest)
    else some (none, c :: cs)
  | [] => some (none, [])

def unsignedLiteral? (negative : Bool) (t : Text) : Option (Literal × Text) := do
  let (whole, t) ← whole? t
  let (fraction, t) ← fraction? t
  let (exponent, t) ← exponent? t
  return (⟨negative, whole, fraction, exponent⟩, t)

def literal? : Text → Option (Literal × Text)
  | '-' :: cs => unsignedLiteral? true cs
  | cs => unsignedLiteral? false cs

/-! ## Strings -/

/-- The number that four hexadecimal digits stand for. -/
def hex4? (a b c d : Char) : Option Nat := do
  let a ← Text.hexValue? a
  let b ← Text.hexValue? b
  let c ← Text.hexValue? c
  let d ← Text.hexValue? d
  return ((a * 16 + b) * 16 + c) * 16 + d

def shortEscape? (c : Char) : Option Char :=
  if c = '"' ∨ c = '\\' ∨ c = '/' then some c
  else if c = 'b' then some '\x08'
  else if c = 'f' then some '\x0c'
  else if c = 'n' then some '\n'
  else if c = 'r' then some '\r'
  else if c = 't' then some '\t'
  else none

/-- Adds a character to a string that was read from there on. -/
def prependChar (c : Char) (r : Option (Text × Text)) : Option (Text × Text) :=
  r.map fun (t, rest) => (c :: t, rest)

/-- The content of a string up to its closing quotation mark, and what follows the mark. -/
def stringBody? : Text → Option (Text × Text)
  | [] => none
  | '"' :: cs => some ([], cs)
  | '\\' :: 'u' :: a :: b :: c :: d :: '\\' :: 'u' :: e :: f :: g :: h :: cs =>
    match hex4? a b c d, hex4? e f g h with
    | some m, some n =>
      -- An escaped surrogate counts only as a pair of a leading and a trailing one.
      if 0xD800 ≤ m ∧ m < 0xDC00 then
        if 0xDC00 ≤ n ∧ n < 0xE000 then
          prependChar (Char.ofNat (0x10000 + (m - 0xD800) * 0x400 + (n - 0xDC00))) (stringBody? cs)
        else none
      else if 0xDC00 ≤ m ∧ m < 0xE000 then none
      else prependChar (Char.ofNat m) (stringBody? ('\\' :: 'u' :: e :: f :: g :: h :: cs))
    | _, _ => none
  | '\\' :: 'u' :: a :: b :: c :: d :: cs =>
    match hex4? a b c d with
    | some m =>
      -- No second escape follows, so a surrogate is without its partner.
      if 0xD800 ≤ m ∧ m < 0xE000 then none else prependChar (Char.ofNat m) (stringBody? cs)
    | none => none
  | '\\' :: c :: cs =>
    match shortEscape? c with
    | some e => prependChar e (stringBody? cs)
    | none => none
  | c :: cs => if c = '\\' ∨ c.toNat < 0x20 then none else prependChar c (stringBody? cs)

/-- What follows a string, from its content on, whether or not its surrogates come in pairs. -/
def skipString? : Text → Option Text
  | [] => none
  | '"' :: cs => some cs
  | '\\' :: 'u' :: a :: b :: c :: d :: cs =>
    if (hex4? a b c d).isSome then skipString? cs else none
  | '\\' :: c :: cs => if (shortEscape? c).isSome then skipString? cs else none
  | c :: cs => if c = '\\' ∨ c.toNat < 0x20 then none else skipString? cs

/-- The string whose content a text starts with, and what follows it. -/
def string? (t : Text) : Option (Lexeme × Text) :=
  match stringBody? t with
  | some (content, rest) => some (.string content, rest)
  | none => (skipString? t).map fun rest => (.brokenString, rest)

/-! ## Lexemes -/

/-- A blank between lexemes. -/
def isGap (c : Char) : Bool := c == ' ' || c == '\t' || c == '\n' || c == '\r'

/-- The lexeme that a text starts with, and what follows it. -/
def lexeme? : Text → Option (Lexeme × Text)
  | '{' :: cs => some (.openObject, cs)
  | '}' :: cs => some (.closeObject, cs)
  | '[' :: cs => some (.openArray, cs)
  | ']' :: cs => some (.closeArray, cs)
  | ':' :: cs => some (.colon, cs)
  | ',' :: cs => some (.comma, cs)
  | '"' :: cs => string? cs
  | 'n' :: 'u' :: 'l' :: 'l' :: cs => some (.null, cs)
  | 't' :: 'r' :: 'u' :: 'e' :: cs => some (.bool true, cs)
  | 'f' :: 'a' :: 'l' :: 's' :: 'e' :: cs => some (.bool false, cs)
  | cs => (literal? cs).map fun (l, rest) => (.number l.toNumber, rest)

/-! ## Progress -/

theorem digits?_length {t ds rest : Text} (h : digits? t = some (ds, rest)) :
    rest.length < t.length := by
  unfold digits? at h
  split at h
  · simp at h
  · rename_i hne
    simp only [Option.some.injEq, Prod.mk.injEq] at h
    obtain ⟨-, rfl⟩ := h
    have hlen := congrArg List.length (List.takeWhile_append_dropWhile (p := Text.isDigit) (l := t))
    have hpos : 0 < (t.takeWhile Text.isDigit).length := List.length_pos_iff.2 hne
    simp only [List.length_append] at hlen
    omega

theorem whole?_length {t ds rest : Text} (h : whole? t = some (ds, rest)) :
    rest.length < t.length := by
  unfold whole? at h
  split at h
  · simp only [Option.some.injEq, Prod.mk.injEq] at h
    simp [← h.2]
  · exact digits?_length h

theorem fraction?_length {t rest : Text} {ds : Option Text} (h : fraction? t = some (ds, rest)) :
    rest.length ≤ t.length := by
  unfold fraction? at h
  split at h
  · obtain ⟨⟨ds', rest'⟩, hd, he⟩ := Option.map_eq_some_iff.1 h
    have := digits?_length hd
    simp only [Prod.mk.injEq] at he
    simp only [List.length_cons, ← he.2]
    omega
  · simp only [Option.some.injEq, Prod.mk.injEq] at h
    simp [← h.2]

theorem signedExponent?_length {t rest : Text} {n : Int}
    (h : signedExponent? t = some (n, rest)) : rest.length < t.length := by
  unfold signedExponent? at h
  split at h <;>
  · obtain ⟨⟨ds', rest'⟩, hd, he⟩ := Option.map_eq_some_iff.1 h
    have := digits?_length hd
    simp only [Prod.mk.injEq] at he
    simp only [List.length_cons, ← he.2]
    omega

theorem exponent?_length {t rest : Text} {n : Option Int} (h : exponent? t = some (n, rest)) :
    rest.length ≤ t.length := by
  unfold exponent? at h
  split at h
  · split at h
    · obtain ⟨⟨ds', rest'⟩, hd, he⟩ := Option.map_eq_some_iff.1 h
      have := signedExponent?_length hd
      simp only [Prod.mk.injEq] at he
      simp only [List.length_cons, ← he.2]
      omega
    · simp only [Option.some.injEq, Prod.mk.injEq] at h
      simp [← h.2]
  · simp only [Option.some.injEq, Prod.mk.injEq] at h
    simp [← h.2]

theorem unsignedLiteral?_length {negative : Bool} {t rest : Text} {l : Literal}
    (h : unsignedLiteral? negative t = some (l, rest)) : rest.length < t.length := by
  unfold unsignedLiteral? at h
  simp only [Option.bind_eq_bind, Option.bind_eq_some_iff, Prod.exists, Option.pure_def,
    Option.some.injEq, Prod.mk.injEq] at h
  obtain ⟨w, t₁, h₁, f, t₂, h₂, e, t₃, h₃, -, rfl⟩ := h
  have := whole?_length h₁
  have := fraction?_length h₂
  have := exponent?_length h₃
  omega

theorem literal?_length {t rest : Text} {l : Literal} (h : literal? t = some (l, rest)) :
    rest.length < t.length := by
  unfold literal? at h
  split at h
  · have := unsignedLiteral?_length h
    simp only [List.length_cons]
    omega
  · exact unsignedLiteral?_length h

theorem prependChar_length {c : Char} {r : Option (Text × Text)} {t rest : Text} {n : Nat}
    (hr : ∀ {t rest : Text}, r = some (t, rest) → rest.length < n)
    (h : prependChar c r = some (t, rest)) : rest.length < n := by
  obtain ⟨⟨t', rest'⟩, hr', he⟩ := Option.map_eq_some_iff.1 h
  simp only [Prod.mk.injEq] at he
  rw [← he.2]
  exact hr hr'

theorem stringBody?_length {t s rest : Text} (h : stringBody? t = some (s, rest)) :
    rest.length < t.length := by
  fun_induction stringBody? t generalizing s rest with
  | case1 | case4 | case5 | case7 | case8 | case10 | case12 | case13 => simp at h
  | case2 =>
    simp only [Option.some.injEq, Prod.mk.injEq] at h
    simp [← h.2]
  | case3 | case6 | case9 | case11 | case14 =>
    rename_i ih
    have := prependChar_length ih h
    simp only [List.length_cons] at this ⊢
    omega

theorem skipString?_length {t rest : Text} (h : skipString? t = some rest) :
    rest.length < t.length := by
  fun_induction skipString? t with
  | case1 => simp at h
  | case2 cs => simp_all
  | case3 a b c d cs hx ih => simp only [List.length_cons]; have := ih h; omega
  | case4 => simp at h
  | case5 c cs hne he ih => simp only [List.length_cons]; have := ih h; omega
  | case6 => simp at h
  | case7 => simp at h
  | case8 c cs _ _ _ hc ih => simp only [List.length_cons]; have := ih h; omega

theorem string?_length {t rest : Text} {l : Lexeme} (h : string? t = some (l, rest)) :
    rest.length < t.length := by
  unfold string? at h
  split at h
  · rename_i hs
    have := stringBody?_length hs
    simp only [Option.some.injEq, Prod.mk.injEq] at h
    simpa [← h.2] using this
  · obtain ⟨r, hr, he⟩ := Option.map_eq_some_iff.1 h
    have := skipString?_length hr
    simp only [Prod.mk.injEq] at he
    simpa [← he.2] using this

theorem lexeme?_length {t rest : Text} {l : Lexeme} (h : lexeme? t = some (l, rest)) :
    rest.length < t.length := by
  unfold lexeme? at h
  split at h
  case h_7 =>
    have := string?_length h
    simp only [List.length_cons]
    omega
  case h_11 =>
    obtain ⟨⟨s, r⟩, hs, he⟩ := Option.map_eq_some_iff.1 h
    have := literal?_length hs
    simp only [Prod.mk.injEq] at he
    simp only [← he.2]
    omega
  all_goals
    simp only [Option.some.injEq, Prod.mk.injEq] at h
    simp only [List.length_cons, ← h.2]
    omega

/-- The lexemes of a text, if it consists of lexemes and gaps. -/
def lexemes? (t : Text) : Option (List Lexeme) :=
  match _ht : t.dropWhile isGap with
  | [] => some []
  | c :: cs =>
    match _hl : lexeme? (c :: cs) with
    | none => none
    | some (l, rest) => (lexemes? rest).map (l :: ·)
termination_by t.length
decreasing_by
  have h₁ := lexeme?_length _hl
  have h₂ := (List.dropWhile_sublist isGap (l := t)).length_le
  rw [_ht] at h₂
  omega

end PagePress.Json
