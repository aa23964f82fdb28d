/-
  PagePress.Json.Writer

  Writing JSON documents: compact on one line, or spread over lines with an
  indent of two spaces a level.

  In a string only the quotation mark, the backslash and the characters
  below U+0020 are escaped.
-/

import PagePress.Decimal.Layout
import PagePress.Json.Value

namespace PagePress.Json

/-! ## Strings -/

/-- The written form of a character in a string. -/
def escapeChar (c : Char) : Text :=
  if c = '"' then ['\\', '"']
  else if c = '\\' then ['\\', '\\']
  else if c = '\x08' then ['\\', 'b']
  else if c = '\t' then ['\\', 't']
  else if c = '\n' then ['\\', 'n']
  else if c = '\x0c' then ['\\', 'f']
  else if c = '\r' then ['\\', 'r']
  else if c.toNat < 0x20 then
    ['\\', 'u', '0', '0', Text.hexDigit (c.toNat / 16), Text.hexDigit (c.toNat % 16)]
  else [c]

/-- Text as it is written between the quotation marks of a string. -/
def escape (t : Text) : Text := t.flatMap escapeChar

/-- A written string, quotation marks included. -/
def quote (t : Text) : Text := '"' :: (escape t ++ ['"'])

/-! ## Numbers -/

/-- Doubles in JSON: without an exponent from 0.00001 up to sixteen digits before the point, and
    always told apart from integers. -/
def layout : Decimal.Layout where
  tie := .toEven
  isPositional := fun exponent => -5 ≤ exponent && exponent ≤ 15
  wholeEnding := ".0"
  exponentMark := "e+"
  negativeExponentMark := "e-"
  nan := "null"
  infinity := "null"

def Number.write : Number → Text
  | .integer i => Text.ofInt i
  | .real x => layout.write x

/-! ## Documents -/

mutual

/-- A document on one line, without blanks. -/
def write : Json → Text
  | .null => "null"
  | .bool b => if b then "true" else "false"
  | .number n => n.write
  | .string t => quote t
  | .array items => '[' :: (writeItems items ++ [']'])
  | .object members => '{' :: (writeMembers members ++ ['}'])

def writeItems : List Json → Text
  | [] => []
  | [v] => v.write
  | v :: vs => v.write ++ ',' :: writeItems vs

def writeMembers : List (Text × Json) → Text
  | [] => []
  | [(k, v)] => quote k ++ ':' :: v.write
  | (k, v) :: ms => quote k ++ ':' :: (v.write ++ ',' :: writeMembers ms)

end

/-- A new line indented by a number of levels. -/
def newline (level : Nat) : Text := '\n' :: List.replicate (2 * level) ' '

mutual

/-- A document spread over lines, inside a number of levels. -/
def writeLines (level : Nat) : Json → Text
  | .array [] => ['[', ']']
  | .array (v :: vs) =>
    '[' :: (newline (level + 1) ++ v.writeLines (level + 1) ++ writeItemLines (level + 1) vs ++
      newline level ++ [']'])
  | .object [] => ['{', '}']
  | .object ((k, v) :: ms) =>
    '{' :: (newline (level + 1) ++ quote k ++ ':' :: ' ' :: v.writeLines (level + 1) ++
      writeMemberLines (level + 1) ms ++ newline level ++ ['}'])
  | .null => "null"
  | .bool b => if b then "true" else "false"
  | .number n => n.write
  | .string t => quote t

/-- The array elements after the first, each on lines of its own. -/
def writeItemLines (level : Nat) : List Json → Text
  | [] => []
  | v :: vs => ',' :: (newline level ++ v.writeLines level ++ writeItemLines level vs)

/-- The object members after the first, each on lines of its own. -/
def writeMemberLines (level : Nat) : List (Text × Json) → Text
  | [] => []
  | (k, v) :: ms =>
    ',' :: (newline level ++ quote k ++ ':' :: ' ' :: v.writeLines level ++
      writeMemberLines level ms)

end

def pretty (v : Json) : Text := v.writeLines 0

end PagePress.Json
