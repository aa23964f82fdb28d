/-
  PagePress.Template.Cleanup

  The cleanup of rendered text.

  Leftover tags are removed until none remains; then line ends are unified,
  runs of blanks within a line become one space, blanks at the end of a line
  disappear, more than one empty line becomes one, and the ends are trimmed.

  A leftover tag has no brace between its braces.  A marker for a part that
  is filled in later stays.
-/

import PagePress.Template.Braces
import PagePress.Text.Blank

namespace PagePress.Cleanup

open Text (isBlank isInlineBlank)

/-! ## Leftover tags -/

/-- A brace of either direction. -/
def isBrace (c : Char) : Bool := c == '{' || c == '}'

def isContent (c : Char) : Bool := !isBrace c

/-- The content of the leftover tag that a text starts with, and what follows the tag. -/
def leftover? : Text → Option (Text × Text)
  | '{' :: '{' :: t =>
    match t.dropWhile isContent with
    | '}' :: '}' :: rest => some (t.takeWhile isContent, rest)
    | _ => none
  | _ => none

/-- Whether the content of a tag makes it a marker for a part that is filled in later. -/
def isMarker (content : Text) : Bool := (Text.trimStart content).head? == some '>'

theorem leftover?_eq {t content rest : Text} (h : leftover? t = some (content, rest)) :
    t = braced content ++ rest := by
  unfold leftover? at h
  split at h
  · rename_i u
    split at h
    · rename_i r hr
      simp only [Option.some.injEq, Prod.mk.injEq] at h
      obtain ⟨rfl, rfl⟩ := h
      have hu := List.takeWhile_append_dropWhile (p := isContent) (l := u)
      rw [hr] at hu
      simp [braced, hu]
    · simp at h
  · simp at h

theorem leftover?_length {t content rest : Text} (h : leftover? t = some (content, rest)) :
    rest.length + content.length + 4 = t.length := by
  rw [leftover?_eq h]
  simp only [List.length_append, length_braced]
  omega

/-- Removes the leftover tags met from left to right; tags that a removal brings about stay. -/
def stripOnce (t : Text) : Text :=
  match t with
  | [] => []
  | c :: cs =>
    match _h : leftover? (c :: cs) with
    | some (content, rest) =>
      -- A marker is put back as it was, and what follows it is read on its own.
      (if isMarker content then braced content else []) ++ stripOnce rest
    | none => c :: stripOnce cs
termination_by t.length
decreasing_by
  · have := leftover?_length _h
    omega
  · simp

theorem stripOnce_length_le (t : Text) : (stripOnce t).length ≤ t.length := by
  fun_induction stripOnce t with
  | case1 => simp
  | case2 c cs content rest h ih =>
    have hl := leftover?_length h
    simp only [List.length_cons] at hl
    simp only [List.length_append, List.length_cons]
    split
    · simp only [length_braced]
      omega
    · simp only [List.length_nil]
      omega
  | case3 c cs h ih => simp only [List.length_cons]; omega

theorem stripOnce_length_lt {t : Text} (h : stripOnce t ≠ t) :
    (stripOnce t).length < t.length := by
  fun_induction stripOnce t with
  | case1 => exact absurd rfl h
  | case2 c cs content rest hl ih =>
    have hlen := leftover?_length hl
    have heq := leftover?_eq hl
    simp only [List.length_cons] at hlen ⊢
    split
    · rename_i hm
      have hne : stripOnce rest ≠ rest := by
        intro he
        apply h
        rw [if_pos hm, he, ← heq]
      have := ih hne
      simp only [List.length_append, length_braced]
      omega
    · have := stripOnce_length_le rest
      simp only [List.nil_append]
      omega
  | case3 c cs hl ih =>
    have hne : stripOnce cs ≠ cs := by
      intro he
      apply h
      rw [he]
    have := ih hne
    simp only [List.length_cons]
    omega

/-- Removes leftover tags until none remains. -/
def strip (t : Text) : Text :=
  if _h : stripOnce t = t then t else strip (stripOnce t)
termination_by t.length
decreasing_by exact stripOnce_length_lt _h

/-! ## Blanks -/

/-- Whether a text starts with a character of some kind. -/
def startsWith (p : Char → Bool) (t : Text) : Bool := t.head?.any p

/-- Drops a carriage return before a newline. -/
def unifyLineEnds : Text → Text
  | [] => []
  | c :: cs =>
    if c == '\r' && startsWith (· == '\n') cs then unifyLineEnds cs else c :: unifyLineEnds cs

/-- Turns each run of two or more blanks within a line into one space. -/
def squeezeBlanks : Text → Text
  | [] => []
  | c :: cs =>
    -- The rest of the run has become one character, which this one replaces.
    if isInlineBlank c && startsWith isInlineBlank cs then ' ' :: (squeezeBlanks cs).drop 1
    else c :: squeezeBlanks cs

/-- Drops the blanks before each newline. -/
def trimLineEnds : Text → Text
  | [] => []
  | c :: cs =>
    let rest := trimLineEnds cs
    if isInlineBlank c && startsWith (· == '\n') rest then rest else c :: rest

/-- Turns three or more newlines in a row into two. -/
def limitEmptyLines : Text → Text
  | [] => []
  | c :: cs =>
    let rest := limitEmptyLines cs
    -- What follows has at most two newlines in a row already.
    if c == '\n' && ['\n', '\n'].isPrefixOf rest then rest else c :: rest

end Cleanup

/-- Rendered text cleaned up. -/
def cleanup (t : Text) : Text :=
  Text.trim (Cleanup.limitEmptyLines (Cleanup.trimLineEnds (Cleanup.squeezeBlanks
    (Cleanup.unifyLineEnds (Cleanup.strip t)))))

end PagePress
