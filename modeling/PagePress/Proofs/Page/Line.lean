/-
  PagePress.Proofs.Page.Line

  Measures of a page, line by line.

  A character that may stand before a link but in no segment divides a page: no
  link reaches over it, and behind it links stand as they do at the very start
  (`Page.links_append_divider`).  Both characters of a line end divide, so the
  links of a page are those of its lines (`Page.links_eq_sum_lines`).  Where one
  page is written below another, links, marked lines and delimiters are found in
  the one or in the other (`Page.measures_append_newline`).
-/

import Mathlib.Algebra.GroupWithZero.Nat
import PagePress.Page.Measure
import PagePress.Proofs.Page.Address
import PagePress.Proofs.Text.Blank
import PagePress.Proofs.Text.Lines

namespace PagePress.Page

/-! ## Links on either side of a divider -/

section Divider

variable {d : Char} (hchar : isLinkChar d = false)

include hchar

theorem dropWhile_append_divider (t u : Text) :
    (t ++ d :: u).dropWhile isLinkChar = t.dropWhile isLinkChar ++ d :: u := by
  have hstop : (d :: u).dropWhile isLinkChar = d :: u :=
    List.dropWhile_cons_of_neg (Bool.eq_false_iff.1 hchar)
  rw [List.dropWhile_append, hstop]
  split
  · next hnil => rw [List.isEmpty_iff.1 hnil, List.nil_append]
  · rfl

variable (hslash : d ≠ '/')

include hslash

theorem skipSegment?_append (t u : Text) :
    skipSegment? (t ++ d :: u) = (skipSegment? t).map (· ++ d :: u) := by
  match t with
  | [] => exact skipSegment?_eq_none hslash u
  | [c] =>
      by_cases hc : c = '/'
      · subst hc
        exact if_neg (Bool.eq_false_iff.1 hchar)
      · rw [List.cons_append, skipSegment?_eq_none hc, skipSegment?_eq_none hc]
        rfl
  | c :: e :: t =>
      by_cases hc : c = '/'
      · subst hc
        rw [List.cons_append, List.cons_append, skipSegment?, skipSegment?,
          dropWhile_append_divider hchar]
        split <;> rfl
      · rw [List.cons_append, skipSegment?_eq_none hc, skipSegment?_eq_none hc]
        rfl

theorem skipSegments_append (t u : Text) :
    skipSegments (t ++ d :: u) = skipSegments t ++ d :: u := by
  fun_induction skipSegments t with
  | case1 t rest h ih =>
      have hstep : skipSegment? (t ++ d :: u) = some (rest ++ d :: u) := by
        rw [skipSegment?_append hchar hslash, h]
        rfl
      rw [skipSegments_step hstep, ih]
  | case2 t h =>
      apply skipSegments_stop
      rw [skipSegment?_append hchar hslash, h]
      rfl

/-- A path ends where it would end if the text did. -/
theorem skipPath?_append (t u : Text) :
    skipPath? (t ++ d :: u) = (skipPath? t).map (· ++ d :: u) := by
  rw [skipPath?, skipPath?, skipSegment?_append hchar hslash]
  cases skipSegment? t with
  | none => rfl
  | some v =>
      rw [Option.map_some, Option.bind_some, Option.bind_some,
        skipSegment?_append hchar hslash]
      cases skipSegment? v with
      | none => rfl
      | some w =>
          rw [Option.map_some, Option.map_some, Option.map_some, Option.map_some,
            skipSegments_append hchar hslash]

theorem linksWithin_append_divider (t u : Text) :
    linksWithin (t ++ d :: u) = linksWithin t + linksWithin (d :: u) := by
  fun_induction linksWithin t with
  | case1 => rw [List.nil_append, Nat.zero_add]
  | case2 c t rest hpath hc ih =>
      have hlink : skipPath? (t ++ d :: u) = some (rest ++ d :: u) := by
        rw [skipPath?_append hchar hslash, hpath]
        rfl
      rw [List.cons_append, linksWithin_link hc hlink, ih]
      omega
  | case3 c t hnone ih =>
      have hpass : isLinkStart c = false ∨ skipPath? (t ++ d :: u) = none := by
        cases hc : isLinkStart c with
        | false => exact .inl rfl
        | true =>
            have hpath : skipPath? t = none :=
              Option.eq_none_iff_forall_ne_some.2 fun rest => hnone rest hc
            rw [skipPath?_append hchar hslash, hpath]
            exact .inr rfl
      rw [List.cons_append, linksWithin_cons hpass, ih]

end Divider

/-- Behind a character that may stand before a link, links stand as at the start of a page. -/
theorem linksWithin_of_isLinkStart {d : Char} (h : isLinkStart d = true) (t : Text) :
    linksWithin (d :: t) = links t := by
  rw [links]
  split
  · next hpath => exact linksWithin_link h hpath
  · next hnone => exact linksWithin_cons (.inr hnone)

/-- No link reaches over a divider, and a link behind it needs no other character before it. -/
theorem links_append_divider {d : Char} (hstart : isLinkStart d = true)
    (hchar : isLinkChar d = false) (a b : Text) : links (a ++ d :: b) = links a + links b := by
  have hslash : d ≠ '/' := ne_slash (by decide) hstart
  have hwithin (t : Text) : linksWithin (t ++ d :: b) = linksWithin t + links b := by
    rw [linksWithin_append_divider hchar hslash, linksWithin_of_isLinkStart hstart]
  rw [links, links, skipPath?_append hchar hslash]
  cases skipPath? a with
  | none => exact hwithin a
  | some rest =>
      show linksWithin (rest ++ d :: b) + 1 = linksWithin rest + 1 + links b
      rw [hwithin]
      omega

/-! ## Links in lines -/

theorem links_append_newline (a b : Text) : links (a ++ '\n' :: b) = links a + links b :=
  links_append_divider (by decide) (by decide) a b

theorem links_nil : links [] = 0 := by
  show linksWithin [] = 0
  rw [linksWithin]

theorem links_dropReturn (line : Text) : links (Text.dropReturn line) = links line := by
  by_cases hlast : line.getLast? = some '\r'
  · obtain ⟨front, rfl⟩ := List.getLast?_eq_some_iff.1 hlast
    rw [Text.dropReturn_append, links_append_divider (by decide) (by decide), links_nil,
      Nat.add_zero]
  · rw [Text.dropReturn_eq_self hlast]

/-- The links of a page are the links of its lines. -/
theorem links_eq_sum_lines (t : Text) : links t = ((Text.lines t).map links).sum := by
  induction t using Text.newline_induction with
  | last t ht =>
      cases t with
      | nil => exact links_nil
      | cons c t =>
          rw [Text.lines_of_not_mem ht (List.cons_ne_nil c t), List.map_singleton,
            List.sum_singleton]
  | next a b ha ih =>
      rw [links_append_newline, Text.lines_append_newline ha, List.map_cons, List.sum_cons,
        links_dropReturn, ih]

/-! ## Marked lines and delimiters -/

theorem markedLines_eq_countP (mark t : Text) : markedLines mark t =
    (Text.lines t).countP fun line => !mark.isEmpty && mark.isPrefixOf (Text.trimStart line) := by
  cases mark with
  | nil => exact (congrFun List.countP_false _).symm
  | cons c mark => exact List.countP_eq_length_filter.symm

theorem hasDelimiter_iff_countP (delimiter t : Text) : hasDelimiter delimiter t = true ↔
    0 < (Text.lines t).countP fun line => !delimiter.isEmpty && Text.trim line == delimiter := by
  simp only [List.countP_pos_iff, hasDelimiter, Bool.and_eq_true, List.any_eq_true,
    and_left_comm, exists_and_left]

/-- A mark that does not end with a carriage return is not found because of one. -/
theorem isPrefixOf_trimStart_return {mark : Text} (h : mark.getLast? ≠ some '\r') (line : Text) :
    mark.isPrefixOf (Text.trimStart (line ++ ['\r'])) = mark.isPrefixOf (Text.trimStart line) := by
  rw [Text.trimStart_append_blank (by decide)]
  split
  · next hnil => rw [List.isEmpty_iff.1 hnil]
  · rw [Bool.eq_iff_iff, List.isPrefixOf_iff_prefix, List.isPrefixOf_iff_prefix,
      List.prefix_concat_iff]
    refine or_iff_right ?_
    rintro rfl
    exact h List.getLast?_concat

/-- Where one page is written below another, links, marked lines and delimiters are those of the
    one and those of the other.  Only a mark that ends with a carriage return may be found at the
    end of the first page and no more once the newline has made it part of a line end. -/
theorem measures_append_newline (mark delimiter a b : Text) :
    links (a ++ '\n' :: b) = links a + links b ∧
      (¬ (a.getLast? = some '\r' ∧ mark.getLast? = some '\r') →
        markedLines mark (a ++ '\n' :: b) = markedLines mark a + markedLines mark b) ∧
      (hasDelimiter delimiter (a ++ '\n' :: b) = true ↔
        hasDelimiter delimiter a = true ∨ hasDelimiter delimiter b = true) := by
  refine ⟨links_append_newline a b, ?_, ?_⟩
  · intro h
    rw [markedLines_eq_countP, markedLines_eq_countP, markedLines_eq_countP]
    apply Text.countP_lines_append_newline
    · cases mark <;> rfl
    · intro hlast line
      have hmark : mark.getLast? ≠ some '\r' := fun hmark => h ⟨hlast, hmark⟩
      rw [isPrefixOf_trimStart_return hmark]
  · rw [hasDelimiter_iff_countP, hasDelimiter_iff_countP, hasDelimiter_iff_countP,
      Text.countP_lines_append_newline]
    · omega
    · cases delimiter <;> rfl
    · intro _ line
      rw [Text.trim_append_blank (by decide)]

/-- The first page ends with a carriage return, but the mark does not. -/
theorem measures_append_newline_questions :
    ¬ ("Q. a\r".toList.getLast? = some '\r' ∧ "Q. ".toList.getLast? = some '\r') ∧
      markedLines "Q. " ("Q. a\r".toList ++ '\n' :: "A. b\n Q. c") = 2 := by
  have hmark : ¬ ("Q. a\r".toList.getLast? = some '\r' ∧ "Q. ".toList.getLast? = some '\r') := by
    decide
  refine ⟨hmark, ?_⟩
  rw [(measures_append_newline "Q. " "---" "Q. a\r" "A. b\n Q. c").2.1 hmark]
  decide

example : markedLines "Q\r" "Q\r" = 1 ∧ markedLines "Q\r" "Q\r\n" = 0 := by decide

end PagePress.Page
