/-
  PagePress.Proofs.Cleanup.Residue

  The tags that are left on a page.

  Cleanup and the reading of templates find tags in two ways.  They agree on
  the tags without braces in them (`strip_eq_self_iff_split`).  On a cleaned
  page these are markers, and no tag is left that reads a variable, or that
  opens, divides or ends a block (`tags_cleanup`).  A tag with a brace in it
  is no leftover tag, and neither is a marker without a name
  (`exists_tag_left`).
-/

import PagePress.Proofs.Cleanup.Normal
import PagePress.Proofs.Template.Classify
import PagePress.Proofs.Template.Tiling

namespace PagePress

namespace Cleanup

/-- Nothing is removed from a text exactly if the tags found in it that have no brace inside, one
    in front apart, are markers. -/
theorem strip_eq_self_iff_split {t : Text} :
    strip t = t ↔ ∀ content, content.all isContent = true →
      Piece.tag content ∈ Piece.split t ∨ Piece.tag ('{' :: content) ∈ Piece.split t →
        isMarker content = true := by
  rw [strip_eq_self_iff]
  constructor
  · intro h content hc hmem
    exact h content ((Piece.infix_iff_mem_split (enclosed_of_isContent hc)).2 hmem) hc
  · intro h content hi hc
    exact h content hc ((Piece.infix_iff_mem_split (enclosed_of_isContent hc)).1 hi)

/-- A tag in a text without leftover tags is a marker, or it has a brace inside and one of the
    forms that hold text. -/
theorem TagFree.classify {t body : Text} (h : TagFree t) (hmem : Piece.tag body ∈ Piece.split t) :
    (∃ name, Tag.classify body = .partialMarker name) ∨
      (Tag.classify body = .unknown ∧ Text.trim body = ['>']) ∨
        ((Tag.classify body).holdsText = true ∧ ('{' ∈ body ∨ '}' ∈ body)) := by
  by_cases hc : body.all isContent = true
  · have hmarker := h body (Piece.infix_of_mem_scan hmem) hc
    exact (Tag.classify_of_isMarker hmarker).imp_right .inl
  · have hbrace : '{' ∈ body ∨ '}' ∈ body := by
      rw [all_isContent_iff] at hc
      tauto
    refine .inr (.inr ⟨?_, hbrace⟩)
    by_contra hholds
    rw [Bool.not_eq_true] at hholds
    rcases hbrace with hopen | hclose
    · exact Tag.not_mem_of_classify (.inl rfl) hholds hopen
    · exact Tag.not_mem_of_classify (.inr rfl) hholds hclose

end Cleanup

/-- The tags left on a page are markers, tags with nothing but the sign of a marker, and tags with
    a brace inside; the last have one of the forms that hold text. -/
theorem tags_cleanup {t : Text} {k : Token} {tag : Tag} (hk : k ∈ Token.ofText (cleanup t))
    (htag : k.tag? = some tag) :
    ∃ body, k.raw = braced body ∧
      ((∃ name, tag = .partialMarker name) ∨ (tag = .unknown ∧ Text.trim body = ['>']) ∨
        (tag.holdsText = true ∧ ('{' ∈ body ∨ '}' ∈ body))) := by
  obtain ⟨body, hmem, hraw, rfl⟩ := Token.exists_of_tag? hk htag
  exact ⟨body, hraw, (normal_cleanup t).tagFree.classify hmem⟩

/-- Next to a variable without a value, a remark with a brace in it is left. -/
theorem tags_cleanup_remark :
    let t := "\x7b\x7bx\x7d\x7d \x7b\x7b!\x7b\x7d\x7d".toList
    let k : Token := ⟨braced ['!', '{'], ⟨0, 6⟩, some (.comment ['{'])⟩
    k ∈ Token.ofText (cleanup t) ∧ k.tag? = some (.comment ['{']) ∧
      ∃ body, k.raw = braced body ∧
        ((∃ name, Tag.comment ['{'] = .partialMarker name) ∨
          (Tag.comment ['{'] = .unknown ∧ Text.trim body = ['>']) ∨
            ((Tag.comment ['{']).holdsText = true ∧ ('{' ∈ body ∨ '}' ∈ body))) := by
  have htokens : Token.ofText (cleanup "\x7b\x7bx\x7d\x7d \x7b\x7b!\x7b\x7d\x7d".toList) =
      [⟨braced ['!', '{'], ⟨0, 6⟩, some (.comment ['{'])⟩] := by decide +kernel
  intro t k
  have hk : k ∈ Token.ofText (cleanup t) := by
    rw [htokens]
    exact List.mem_singleton_self k
  exact ⟨hk, rfl, tags_cleanup hk rfl⟩

/-- A tag of no known form is left because of the brace in it. -/
theorem exists_tag_left :
    ¬ ∀ t, ∀ k ∈ Token.ofText (cleanup t), ∀ tag, k.tag? = some tag →
      ∃ name, tag = .partialMarker name := by
  intro h
  have htokens : Token.ofText (cleanup (braced ['a', '{', 'b'])) =
      [⟨braced ['a', '{', 'b'], ⟨0, 7⟩, some .unknown⟩] := by decide +kernel
  obtain ⟨name, hname⟩ := h (braced ['a', '{', 'b']) _
    (by rw [htokens]; exact List.mem_singleton_self _) .unknown rfl
  exact Tag.noConfusion hname

-- The reading of templates takes a marker without a name for no known form, cleanup keeps it.
example : (Token.ofText (cleanup (braced ['>']))).map Token.tag? = [some .unknown] := by decide +kernel

end PagePress
