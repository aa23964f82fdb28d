/-
  PagePress.Text.Word

  Word characters: the characters that names and path segments are made of.
-/

import PagePress.Text.WordTable

namespace PagePress.Text

/-- Whether a code point lies in one of some ranges. -/
def inRanges (n : Nat) (ranges : List (Nat × Nat)) : Bool :=
  ranges.any fun (low, high) => low ≤ n && n ≤ high

/-- A word character of ASCII: a letter, a digit or the underscore. -/
def isAsciiWord (c : Char) : Bool :=
  ('a' ≤ c && c ≤ 'z') || ('A' ≤ c && c ≤ 'Z') || ('0' ≤ c && c ≤ '9') || c == '_'

/-- A word character of any script. -/
def isWord (c : Char) : Bool :=
  let n := c.toNat
  if n < 0x80 then isAsciiWord c
  else if n < 0x1000 then inRanges n wordRangesLow
  else if n < 0x10000 then inRanges n wordRangesMiddle
  else inRanges n wordRangesHigh

end PagePress.Text
