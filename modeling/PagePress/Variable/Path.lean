/-
  PagePress.Variable.Path

  Paths to variables, such as `place.address` or `@index`.

  A path is written as its segments with dots between them.  It has at least
  one segment, no segment is empty, and blanks, quotation marks, braces and
  dots do not occur in a segment.
-/

import PagePress.Text.Blank

namespace PagePress

/-- A character that may stand in a segment of a path. -/
def isSegmentChar (c : Char) : Bool :=
  !Text.isBlank c && c != '\'' && c != '"' && c != '{' && c != '}' && c != '.'

/-- A text that may be a segment of a path. -/
def isSegment (t : Text) : Bool := !t.isEmpty && t.all isSegmentChar

/-- Texts that are the segments of a path. -/
def isPath (segments : List Text) : Bool := !segments.isEmpty && segments.all isSegment

structure VarPath where
  segments : List Text
  isPath_segments : isPath segments = true
  deriving DecidableEq

namespace VarPath

def parse? (t : Text) : Option VarPath :=
  if h : isPath (Text.splitOn '.' t) = true then some ⟨Text.splitOn '.' t, h⟩ else none

def display (p : VarPath) : Text := List.intercalate ['.'] p.segments

end VarPath

end PagePress
