/-
  PagePress.Template.Tag

  The tags of a template and how the text between the braces is read.

  A tag's first character tells comments, partial markers, openers and
  closers apart.  What starts with none of these is split into arguments:
  bare ones, and quoted ones that may hold blanks.  A tag that has none of
  the known forms is unknown; no text is refused.
-/

import PagePress.Variable.Path

namespace PagePress

/-- The forms of a tag. -/
inductive Tag where
  | variable (path : VarPath)
  /-- The particle that suits the value of a variable. -/
  | particle (word : VarPath) (spec : Text)
  /-- A pattern of the library, chosen with the help of a variable's value if a path is given. -/
  | pattern (category sect : Text) (word : Option VarPath)
  | openIf (condition : VarPath)
  /-- The start of the other branch of a conditional. -/
  | otherwise
  | closeIf
  | openEach (path : VarPath)
  | closeEach
  /-- A marker for a part that is filled in later; it is kept as it is. -/
  | partialMarker (name : Text)
  /-- A remark that leaves no trace. -/
  | comment (remark : Text)
  /-- Anything else. -/
  | unknown
  deriving DecidableEq

namespace Tag

/-! ## Arguments -/

inductive Argument where
  | bare (t : Text)
  | quoted (t : Text)
  deriving DecidableEq

def Argument.content : Argument → Text
  | .bare t => t
  | .quoted t => t

/-- The path that a bare argument is. -/
def Argument.path? : Argument → Option VarPath
  | .bare t => VarPath.parse? t
  | .quoted _ => none

/-- A quotation mark of either kind. -/
def isQuote (c : Char) : Bool := c == '\'' || c == '"'

/-- What is not blank. -/
def isSolid (c : Char) : Bool := !Text.isBlank c

/-- The arguments in a text; none if a quotation is left open or touches other text. -/
def arguments? : Text → Option (List Argument)
  | [] => some []
  | c :: cs =>
    if Text.isBlank c then arguments? cs
    else if isQuote c then
      match _hd : cs.dropWhile (· != c) with
      | [] => none
      | _ :: rest =>
        -- The closing mark stands at the end or before a blank.
        if rest.head?.all Text.isBlank then
          (arguments? rest).map (.quoted (cs.takeWhile (· != c)) :: ·)
        else none
    else
      let bare := c :: cs.takeWhile isSolid
      if bare.any isQuote then none
      else (arguments? (cs.dropWhile isSolid)).map (.bare bare :: ·)
termination_by t => t.length
decreasing_by
  all_goals simp only [List.length_cons]
  · omega
  · have := (List.dropWhile_sublist (· != c) (l := cs)).length_le
    rw [_hd] at this
    simp only [List.length_cons] at this
    omega
  · have := (List.dropWhile_sublist isSolid (l := cs)).length_le
    omega

/-- The tag that some arguments make up. -/
def ofArguments : List Argument → Tag
  | [.bare head] =>
    match VarPath.parse? head with
    | some path => .variable path
    | none => unknown
  -- A quoted last argument is the spec of a particle, or else the section of a pattern.
  | [.bare head, word, .quoted spec] =>
    if head = "josa" then
      match word.path? with
      | some word => particle word spec
      | none => unknown
    else if head = "pattern" then pattern word.content spec none
    else unknown
  | [.bare head, category, sect] =>
    if head = "pattern" then pattern category.content sect.content none else unknown
  | [.bare head, category, sect, word] =>
    if head = "pattern" then
      match word.path? with
      | some path => pattern category.content sect.content (some path)
      | none => unknown
    else unknown
  | _ => unknown

/-! ## Classification -/

/-- The tag that starts a block, from what follows the number sign: a keyword, one blank, a path. -/
def ofOpener (t : Text) : Tag :=
  let keyword := t.takeWhile isSolid
  match VarPath.parse? (Text.trim ((t.dropWhile isSolid).drop 1)) with
  | none => unknown
  | some path =>
    if keyword = "if" then openIf path
    else if keyword = "each" then openEach path
    else unknown

/-- The tag that ends a block, from what follows the slash. -/
def ofCloser (t : Text) : Tag :=
  let keyword := Text.trim t
  if keyword = "if" then closeIf
  else if keyword = "each" then closeEach
  else unknown

/-- The tag with the given text between its braces. -/
def classify (body : Text) : Tag :=
  match Text.trim body with
  | '!' :: remark => comment (Text.trim remark)
  | '>' :: name =>
    match Text.trim name with
    | [] => unknown
    | name => partialMarker name
  | '#' :: opener => ofOpener opener
  | '/' :: closer => ofCloser closer
  | content =>
    if content = "else" then otherwise
    else match arguments? content with
      | some arguments => ofArguments arguments
      | none => unknown

end Tag

end PagePress
