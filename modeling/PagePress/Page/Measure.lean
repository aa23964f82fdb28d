/-
  PagePress.Page.Measure

  Measures of a page: marked lines, shared stretches of text, and the
  variety of its words.
-/

import PagePress.Text.Blank
import PagePress.Text.Lines

namespace PagePress.Page

/-! ## Lines -/

/-- The number of lines that start with a mark, blanks before it aside. -/
def markedLines (mark t : Text) : Nat :=
  -- No line starts with the empty mark.
  if mark.isEmpty then 0
  else ((Text.lines t).filter fun line => mark.isPrefixOf (Text.trimStart line)).length

/-- Whether some line consists of a delimiter, blanks around it aside. -/
def hasDelimiter (delimiter t : Text) : Bool :=
  -- An empty line is no delimiter.
  !delimiter.isEmpty && (Text.lines t).any fun line => Text.trim line == delimiter

/-! ## Stretches -/

/-- Every place where a stretch of so many characters starts, with the stretch there. -/
def windows (size : Nat) : Text → List Text
  | [] => []
  | c :: cs =>
    if (c :: cs).length < size then [] else (c :: cs).take size :: windows size cs

/-- The different stretches of so many characters; of no characters there are none. -/
def stretches (size : Nat) (t : Text) : List Text :=
  if size = 0 then [] else Text.distinct (windows size t)

/-- A count as a double.  A count is a number of 64 bits. -/
def ofCount (n : Nat) : Float := (UInt64.ofNatClamp n).toFloat

/-- The part of a count that another is; none of nothing. -/
def ratio (part whole : Nat) : Float :=
  if whole = 0 then 0.0 else ofCount part / ofCount whole

/-- The share that two collections of different texts have in common, of all that is in either. -/
def overlap (a b : List Text) : Float :=
  let common := (a.filter fun x => decide (x ∈ b)).length
  ratio common (a.length + b.length - common)

/-! ## Words -/

/-- How many of the words of a text are different. -/
def diversity (t : Text) : Float :=
  let words := Text.words t
  ratio (Text.distinct words).length words.length

end PagePress.Page
