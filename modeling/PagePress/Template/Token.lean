/-
  PagePress.Template.Token

  Splitting a template into plain text and tags.

  A tag runs from two opening braces to the first two closing braces after
  them.  Where more than one pair of opening braces precedes the closing
  ones, the tag starts at the last pair, pairs being counted from the left
  without overlap; those before it are plain text, and so is everything after
  the last tag.
-/

import PagePress.Template.Braces
import PagePress.Template.Tag

namespace PagePress

/-- A stretch of a template: plain text, or a tag given by what stands between its braces. -/
inductive Piece where
  | plain (t : Text)
  | tag (body : Text)
  deriving DecidableEq

namespace Piece

def raw : Piece → Text
  | plain t => t
  | tag body => braced body

/-- Plain text as a piece, unless there is none. -/
def ofPlain (t : Text) : List Piece := if t.isEmpty then [] else [plain t]

/-- The pieces of what is left of a template, after plain text that belongs to no piece yet. -/
def scan (pending t : Text) : List Piece :=
  match _ho : Text.cutAtPair '{' t with
  | none => ofPlain (pending ++ t)
  | some (before, afterOpen) =>
    match _hc : Text.cutAtPair '}' afterOpen with
    | none => ofPlain (pending ++ t)
    | some (body, afterClose) =>
      match _hi : Text.cutAtPair '{' body with
      -- The tag can only start at a later pair; up to there the text is plain.
      | some (skipped, inner) =>
        scan (pending ++ before ++ '{' :: '{' :: skipped)
          ('{' :: '{' :: (inner ++ '}' :: '}' :: afterClose))
      | none => ofPlain (pending ++ before) ++ tag body :: scan [] afterClose
termination_by t.length
decreasing_by
  all_goals
    have h₁ := congrArg List.length (Text.cutAtPair_eq _ho)
    have h₂ := congrArg List.length (Text.cutAtPair_eq _hc)
    simp only [List.length_append, List.length_cons] at h₁ h₂ ⊢
  · have h₃ := congrArg List.length (Text.cutAtPair_eq _hi)
    simp only [List.length_append, List.length_cons] at h₃
    omega
  · omega

def split (t : Text) : List Piece := scan [] t

end Piece

/-- A stretch of a template in bytes, its end not included. -/
structure Span where
  start : Nat
  stop : Nat
  deriving DecidableEq

/-- A piece of a template with its place there. -/
structure Token where
  raw : Text
  span : Span
  /-- The tag, unless the token is plain text. -/
  tag? : Option Tag
  deriving DecidableEq

namespace Token

/-- What a piece is: a tag of some form, or plain text. -/
def tagOf : Piece → Option Tag
  | .plain _ => none
  | .tag body => some (Tag.classify body)

/-- The tokens of pieces that follow each other from some byte on. -/
def place (start : Nat) : List Piece → List Token
  | [] => []
  | p :: ps =>
    let stop := start + Text.bytes p.raw
    ⟨p.raw, ⟨start, stop⟩, tagOf p⟩ :: place stop ps

/-- The tokens of a template. -/
def ofText (t : Text) : List Token := place 0 (Piece.split t)

end Token

end PagePress
