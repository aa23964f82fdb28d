/-
  PagePress.Text.Lines

  The lines of a text.

  A line ends at a newline, which is not part of it; one carriage return
  right before the newline goes with it.  A text that ends with a newline has
  no empty line after it, and the empty text has no line.
-/

import PagePress.Text.Basic

namespace PagePress.Text

def lines : Text → List Text
  | [] => []
  | '\r' :: '\n' :: cs => [] :: lines cs
  | '\n' :: cs => [] :: lines cs
  | c :: cs =>
    match lines cs with
    | [] => [[c]]
    | line :: rest => (c :: line) :: rest

end PagePress.Text
