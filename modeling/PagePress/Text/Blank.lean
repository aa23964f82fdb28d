/-
  PagePress.Text.Blank

  Blank characters, trimming and words.

  A character is blank when it has the Unicode property White_Space.  Words
  are the longest runs of characters that are not blank.
-/

import PagePress.Text.Basic

namespace PagePress.Text

/-- The characters of the Unicode property White_Space: 25 of them. -/
def isBlank (c : Char) : Bool :=
  let n := c.toNat
  (0x09 ≤ n && n ≤ 0x0D) || n == 0x20 || n == 0x85 || n == 0xA0 || n == 0x1680 ||
    (0x2000 ≤ n && n ≤ 0x200A) || n == 0x2028 || n == 0x2029 || n == 0x202F || n == 0x205F ||
    n == 0x3000

/-- A blank that does not end a line. -/
def isInlineBlank (c : Char) : Bool := isBlank c && c != '\n'

/-! ## Trimming -/

def trimStart (t : Text) : Text := t.dropWhile isBlank

def trimEnd (t : Text) : Text := (t.reverse.dropWhile isBlank).reverse

def trim (t : Text) : Text := trimEnd (trimStart t)

/-! ## Words -/

/-- The words of a text, in order. -/
def words : Text → List Text
  | [] => []
  | c :: cs =>
    if isBlank c then words cs
    else match cs.head?.all isBlank, words cs with
      | false, word :: rest => (c :: word) :: rest
      | _, rest => [c] :: rest

end PagePress.Text
