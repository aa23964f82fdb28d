/-
  PagePress.Toml.Lexeme

  The smallest parts of TOML text: gaps, comments, line ends, strings and
  keys.

  A line ends with a newline, before which one carriage return may stand.
  Control characters other than the tab are refused everywhere.
-/

import PagePress.Toml.Value

namespace PagePress.Toml

/-! ## Gaps -/

/-- A blank within a line. -/
def isGap (c : Char) : Bool := c == ' ' || c == '\t'

def skipGap (t : Text) : Text := t.dropWhile isGap

/-- A character that may stand in a comment. -/
def isCommentChar (c : Char) : Bool := c == '\t' || (0x20 ≤ c.toNat && c.toNat != 0x7F)

/-- What follows a line end, if the text starts with one. -/
def lineEnd? : Text → Option Text
  | '\n' :: cs => some cs
  | '\r' :: '\n' :: cs => some cs
  | _ => none

/-- A text without the comment it may start with. -/
def skipComment : Text → Text
  | '#' :: cs => cs.dropWhile isCommentChar
  | cs => cs

/-- What follows the rest of a line that holds at most a comment. -/
def restOfLine? (t : Text) : Option Text :=
  match skipComment (skipGap t) with
  | [] => some []
  | cs => lineEnd? cs

/-- A text without the gaps, comments and line ends it starts with, given a bound on their
    number. -/
def skipLines : Nat → Text → Text
  | 0, t => t
  | n + 1, t =>
    match skipGap t with
    | '#' :: cs => skipLines n (cs.dropWhile isCommentChar)
    | cs =>
      match lineEnd? cs with
      | some rest => skipLines n rest
      | none => cs

def skipBlankLines (t : Text) : Text := skipLines (t.length + 1) t

/-! ## Strings -/

/-- The character with some hexadecimal digits as its code point. -/
def charOfHex? (digits : Text) : Option Char := do
  let values ← digits.mapM Text.hexValue?
  let n := values.foldl (fun n d => 16 * n + d) 0
  if n.isValidChar then some (Char.ofNat n) else none

/-- The character that an escape sequence stands for, its backslash already read. -/
def escape? : Reader Char
  | 'b' :: cs => some ('\x08', cs)
  | 't' :: cs => some ('\t', cs)
  | 'n' :: cs => some ('\n', cs)
  | 'f' :: cs => some ('\x0c', cs)
  | 'r' :: cs => some ('\r', cs)
  | '"' :: cs => some ('"', cs)
  | '\\' :: cs => some ('\\', cs)
  | 'u' :: cs =>
    if 4 ≤ cs.length then (charOfHex? (cs.take 4)).map fun c => (c, cs.drop 4) else none
  | 'U' :: cs =>
    if 8 ≤ cs.length then (charOfHex? (cs.take 8)).map fun c => (c, cs.drop 8) else none
  | _ => none

/-- A string between single quotation marks: nothing is escaped in it. -/
def literalString? (t : Text) : Option (Text × Text) :=
  let content := t.takeWhile fun c => c != '\'' && isCommentChar c
  match t.drop content.length with
  | '\'' :: rest => some (content, rest)
  | _ => none

/-- The rest of a string between quotation marks, given a bound on its length. -/
def basicString? : Nat → Reader Text
  | 0, _ => none
  | _ + 1, [] => none
  | _ + 1, '"' :: cs => some ([], cs)
  | n + 1, '\\' :: cs => do
    let (c, cs) ← escape? cs
    let (content, rest) ← basicString? n cs
    return (c :: content, rest)
  | n + 1, c :: cs =>
    if isCommentChar c then do
      let (content, rest) ← basicString? n cs
      return (c :: content, rest)
    else none

/-- The number of times that a character stands at the start of a text. -/
def countStart (c : Char) (t : Text) : Nat := (t.takeWhile (· == c)).length

/-- A text without the gaps and line ends it starts with, given a bound on their number. -/
def skipBlanks : Nat → Text → Text
  | 0, t => t
  | n + 1, t =>
    match lineEnd? (skipGap t) with
    | some rest => skipBlanks n rest
    | none => skipGap t

/-- What follows a backslash at the end of a line and the blanks after it. -/
def lineContinuation? (t : Text) : Option Text :=
  (lineEnd? (skipGap t)).map fun rest => skipBlanks (rest.length + 1) rest

/-- The rest of a string between three marks of a kind, given a bound on its length. -/
def longString? (mark : Char) : Nat → Reader Text
  | 0, _ => none
  | _ + 1, [] => none
  | n + 1, c :: cs =>
    if c = mark then
      let marks := countStart mark (c :: cs)
      if 3 ≤ marks then
        -- Up to two marks may stand before the closing ones.
        let kept := min marks 5 - 3
        some (List.replicate kept mark, (c :: cs).drop (kept + 3))
      else do
        let (content, rest) ← longString? mark n ((c :: cs).drop marks)
        return (List.replicate marks mark ++ content, rest)
    else if c = '\\' ∧ mark = '"' then
      -- A backslash at the end of a line hides the blank text after it.
      match lineContinuation? cs with
      | some rest => longString? mark n rest
      | none => do
        let (e, cs) ← escape? cs
        let (content, rest) ← longString? mark n cs
        return (e :: content, rest)
    else
      -- A line end of either form is a newline in the string.
      match lineEnd? (c :: cs) with
      | some rest => do
        let (content, rest) ← longString? mark n rest
        return ('\n' :: content, rest)
      | none =>
        if isCommentChar c then do
          let (content, rest) ← longString? mark n cs
          return (c :: content, rest)
        else none

/-- A string between three marks; a line end right after the opening ones does not count. -/
def longStringBody? (mark : Char) (t : Text) : Option (Text × Text) :=
  let t := (lineEnd? t).getD t
  longString? mark (t.length + 1) t

/-- A string of any of the four kinds. -/
def string? : Reader Text
  | '"' :: '"' :: '"' :: cs => longStringBody? '"' cs
  | '"' :: cs => basicString? (cs.length + 1) cs
  | '\'' :: '\'' :: '\'' :: cs => longStringBody? '\'' cs
  | '\'' :: cs => literalString? cs
  | _ => none

/-! ## Keys -/

/-- The number of parts from which on a key is refused. -/
def keyLimit : Nat := 80

/-- A character of a bare key. -/
def isKeyChar (c : Char) : Bool :=
  ('a' ≤ c && c ≤ 'z') || ('A' ≤ c && c ≤ 'Z') || ('0' ≤ c && c ≤ '9') || c == '_' || c == '-'

/-- One part of a key. -/
def keyPart? : Reader Text
  | '"' :: cs => basicString? (cs.length + 1) cs
  | '\'' :: cs => literalString? cs
  | cs =>
    match cs.takeWhile isKeyChar with
    | [] => none
    | part => some (part, cs.dropWhile isKeyChar)

/-- The parts of a key with dots between them, given a bound on their number. -/
def keyParts? : Nat → Reader (List Text)
  | 0, _ => none
  | n + 1, t => do
    let (part, t) ← keyPart? (skipGap t)
    match skipGap t with
    | '.' :: cs => do
      let (parts, rest) ← keyParts? n cs
      return (part :: parts, rest)
    | rest => return ([part], rest)

/-- A key with the gaps around it. -/
def key? (t : Text) : Option (List Text × Text) := keyParts? (keyLimit - 1) t

end PagePress.Toml
