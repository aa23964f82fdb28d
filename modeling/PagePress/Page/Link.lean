/-
  PagePress.Page.Link

  Internal links in a page.

  An internal link is a path of two or more segments, each written with a
  slash before it.  It stands at the very start of the page or after a
  character that could not be part of an address: no word character, colon,
  slash or point.  That character belongs to the link, so that links do not
  share it.
-/

import PagePress.Text.Word

namespace PagePress.Page

/-- A character of a segment. -/
def isLinkChar (c : Char) : Bool := Text.isWord c || c == '%' || c == '-'

/-- A character that a link may follow. -/
def isLinkStart (c : Char) : Bool := !(Text.isWord c || c == ':' || c == '/' || c == '.')

/-- What follows a segment with its slash. -/
def skipSegment? : Text → Option Text
  | '/' :: c :: cs => if isLinkChar c then some (cs.dropWhile isLinkChar) else none
  | _ => none

theorem skipSegment?_length {t rest : Text} (h : skipSegment? t = some rest) :
    rest.length < t.length := by
  unfold skipSegment? at h
  split at h
  · rename_i c cs
    split at h
    · have := (List.dropWhile_sublist isLinkChar (l := cs)).length_le
      simp only [Option.some.injEq] at h
      simp only [List.length_cons, ← h]
      omega
    · simp at h
  · simp at h

/-- What follows as many segments as there are. -/
def skipSegments (t : Text) : Text :=
  match _h : skipSegment? t with
  | some rest => skipSegments rest
  | none => t
termination_by t.length
decreasing_by exact skipSegment?_length _h

theorem skipSegments_length_le (t : Text) : (skipSegments t).length ≤ t.length := by
  fun_induction skipSegments t with
  | case1 t rest h ih => have := skipSegment?_length h; omega
  | case2 => omega

/-- What follows a path of at least two segments. -/
def skipPath? (t : Text) : Option Text :=
  ((skipSegment? t).bind skipSegment?).map skipSegments

theorem skipPath?_length {t rest : Text} (h : skipPath? t = some rest) :
    rest.length < t.length := by
  obtain ⟨u, hu, rfl⟩ := Option.map_eq_some_iff.1 h
  obtain ⟨v, hv, hu⟩ := Option.bind_eq_some_iff.1 hu
  have h₁ := skipSegment?_length hv
  have h₂ := skipSegment?_length hu
  have h₃ := skipSegments_length_le u
  omega

/-- The number of links in what is left of a page once its start has been passed. -/
def linksWithin (t : Text) : Nat :=
  match t with
  | [] => 0
  | c :: cs =>
    match isLinkStart c, _h : skipPath? cs with
    | true, some rest => linksWithin rest + 1
    | _, _ => linksWithin cs
termination_by t.length
decreasing_by
  · have := skipPath?_length _h
    simp only [List.length_cons]
    omega
  · simp

/-- The number of internal links in a page. -/
def links (t : Text) : Nat :=
  -- Only here may a link stand without a character before it.
  match skipPath? t with
  | some rest => linksWithin rest + 1
  | none => linksWithin t

end PagePress.Page
