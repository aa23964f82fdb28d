/-
  PagePress.Proofs.Cleanup.Leftover

  The removal of leftover tags, tag by tag.

  A removal takes one leftover tag out of a text (`Removes`).  What
  `Cleanup.strip` does to a text is a sequence of removals
  (`strip_reaches`), it goes on until no tag can be removed
  (`tagFree_strip`), and it leaves a text without leftover tags alone
  (`strip_eq_self_iff`).
-/

import Mathlib.Logic.Relation
import PagePress.Proofs.Template.Enclosed
import PagePress.Template.Cleanup

namespace PagePress.Cleanup

open Relation (ReflTransGen)

/-- Nothing in the text is a leftover tag: whatever stands between double braces, without a brace
    in it, is a marker for a part that is filled in later. -/
def TagFree (t : Text) : Prop :=
  ∀ content, braced content <:+: t → content.all isContent = true → isMarker content = true

/-- The second text is the first without one of its leftover tags. -/
inductive Removes : Text → Text → Prop where
  | mk (before after : Text) {content : Text} (hc : content.all isContent = true)
      (hm : isMarker content = false) :
      Removes (before ++ (braced content ++ after)) (before ++ after)

namespace Removes

theorem append_left (p : Text) {t u : Text} (h : Removes t u) : Removes (p ++ t) (p ++ u) := by
  obtain ⟨before, after, hc, hm⟩ := h
  rw [← List.append_assoc, ← List.append_assoc p]
  exact .mk (p ++ before) after hc hm

theorem length_lt {t u : Text} (h : Removes t u) : u.length < t.length := by
  obtain ⟨before, after, -, -⟩ := h
  simp only [List.length_append, length_braced]
  omega

/-- Nothing can be removed from a text without leftover tags. -/
theorem not_of_tagFree {t u : Text} (ht : TagFree t) : ¬ Removes t u := by
  rintro ⟨before, after, hc, hm⟩
  rw [ht _ ⟨before, after, by rw [List.append_assoc]⟩ hc] at hm
  exact Bool.noConfusion hm

end Removes

theorem TagFree.of_infix {t u : Text} (ht : TagFree t) (h : u <:+: t) : TagFree u :=
  fun content hi hc => ht content (hi.trans h) hc

/-! ## One leftover tag at the start of a text -/

theorem leftover?_content {t content rest : Text} (h : leftover? t = some (content, rest)) :
    content.all isContent = true := by
  unfold leftover? at h
  split at h
  · split at h
    · simp only [Option.some.injEq, Prod.mk.injEq] at h
      rw [← h.1]
      exact List.all_takeWhile
    · simp at h
  · simp at h

/-- A tag without braces in it is met where it starts. -/
theorem leftover?_braced {content : Text} (hc : content.all isContent = true) (rest : Text) :
    leftover? (braced content ++ rest) = some (content, rest) := by
  rw [List.all_eq_true] at hc
  have hclose : isContent '}' = false := by decide
  have hdrop : (content ++ '}' :: '}' :: rest).dropWhile isContent = '}' :: '}' :: rest := by
    rw [List.dropWhile_append_of_pos hc, List.dropWhile_cons, hclose]
    rfl
  have htake : (content ++ '}' :: '}' :: rest).takeWhile isContent = content := by
    rw [List.takeWhile_append_of_pos hc, List.takeWhile_cons, hclose]
    exact List.append_nil content
  rw [braced_append]
  simp only [leftover?, hdrop, htake]

/-- A tag at the start of a text is the leftover tag met there. -/
theorem leftover?_of_prefix {content t : Text} (h : braced content <+: t)
    (hc : content.all isContent = true) : ∃ rest, leftover? t = some (content, rest) := by
  obtain ⟨rest, rfl⟩ := h
  exact ⟨rest, leftover?_braced hc rest⟩

theorem all_isContent_iff {content : Text} :
    content.all isContent = true ↔ '{' ∉ content ∧ '}' ∉ content := by
  rw [List.all_eq_true]
  constructor
  · exact fun h => ⟨fun hmem => absurd (h _ hmem) (by decide),
      fun hmem => absurd (h _ hmem) (by decide)⟩
  · rintro ⟨hopen, hclose⟩ c hc
    have hne : c ≠ '{' ∧ c ≠ '}' := ⟨ne_of_mem_of_not_mem hc hopen, ne_of_mem_of_not_mem hc hclose⟩
    rw [isContent, isBrace, beq_false_of_ne hne.1, beq_false_of_ne hne.2]
    rfl

theorem enclosed_of_isContent {content : Text} (hc : content.all isContent = true) :
    Enclosed content :=
  .of_not_mem (all_isContent_iff.1 hc).1 (all_isContent_iff.1 hc).2

/-- A tag that does not start where another tag starts stands behind that tag. -/
theorem infix_braced_append {content content' rest : Text}
    (hc' : content'.all isContent = true) (h : braced content <:+: braced content' ++ rest) :
    braced content <+: braced content' ++ rest ∨ braced content <:+: rest := by
  obtain ⟨x, y, heq⟩ := h
  rw [List.append_assoc] at heq
  rcases (enclosed_of_isContent hc').cut heq.symm with rfl | ⟨z, -, rfl⟩
  · exact .inl ⟨y, heq⟩
  · exact .inr ⟨z, y, by rw [List.append_assoc]⟩

/-! ## One pass -/

/-- A pass is a sequence of removals. -/
theorem stripOnce_reaches (t : Text) : ReflTransGen Removes t (stripOnce t) := by
  -- what follows a removed or kept tag is cleaned next, and a removal there is one in the whole
  fun_induction stripOnce t with
  | case1 => exact .refl
  | case2 c cs content rest h ih =>
      rw [leftover?_eq h]
      by_cases hm : isMarker content = true
      · rw [if_pos hm]
        exact ih.lift (braced content ++ ·) fun _ _ hr => hr.append_left (braced content)
      · rw [if_neg hm]
        exact .head (.mk [] rest (leftover?_content h) (Bool.eq_false_iff.2 hm)) ih
  | case3 c cs _ ih => exact ih.lift (c :: ·) fun _ _ hr => hr.append_left [c]

/-- What a pass leaves alone has no leftover tag. -/
theorem tagFree_of_stripOnce_eq {t : Text} (h : stripOnce t = t) : TagFree t := by
  fun_induction stripOnce t with
  | case1 => exact fun content hi _ => absurd hi.length_le (by simp)
  | case2 c cs content rest hl ih =>
      have heq := leftover?_eq hl
      by_cases hm : isMarker content = true
      · -- the tag is a marker: any other tag stands behind it
        rw [if_pos hm, heq] at h
        have hrest := ih (List.append_cancel_left h)
        intro content' hi hc'
        rw [heq] at hi
        rcases infix_braced_append (leftover?_content hl) hi with hp | hi
        · obtain ⟨rest', hl'⟩ := leftover?_of_prefix hp hc'
          rw [← heq, hl] at hl'
          simp only [Option.some.injEq, Prod.mk.injEq] at hl'
          rw [← hl'.1]
          exact hm
        · exact hrest content' hi hc'
      · -- the tag was taken out, so the text has become shorter
        rw [if_neg hm, List.nil_append, heq] at h
        have hlen := stripOnce_length_le rest
        rw [h, List.length_append, length_braced] at hlen
        omega
  | case3 c cs hl ih =>
      have hcs := ih (List.cons.inj h).2
      intro content hi hc
      rw [List.infix_cons_iff] at hi
      rcases hi with hp | hi
      · obtain ⟨rest, hl'⟩ := leftover?_of_prefix hp hc
        rw [hl] at hl'
        exact absurd hl'.symm (Option.some_ne_none _)
      · exact hcs content hi hc

/-- A pass leaves a text without leftover tags alone. -/
theorem TagFree.stripOnce_eq {t : Text} (ht : TagFree t) : stripOnce t = t := by
  fun_induction stripOnce t with
  | case1 => rfl
  | case2 c cs content rest hl ih =>
      have heq := leftover?_eq hl
      rw [heq] at ht
      have hm := ht content List.infix_append_left (leftover?_content hl)
      rw [if_pos hm, ih (ht.of_infix List.infix_append_right), ← heq]
  | case3 c cs _ ih => rw [ih (ht.of_infix (List.infix_cons (List.infix_refl cs)))]

/-! ## All passes -/

/-- The removal of leftover tags is a sequence of removals of one each. -/
theorem strip_reaches (t : Text) : ReflTransGen Removes t (strip t) := by
  fun_induction strip t with
  | case1 => exact .refl
  | case2 t _ ih => exact (stripOnce_reaches t).trans ih

theorem tagFree_strip (t : Text) : TagFree (strip t) := by
  fun_induction strip t with
  | case1 t h => exact tagFree_of_stripOnce_eq h
  | case2 t _ ih => exact ih

/-- A text without leftover tags stays as it is, and no other text does. -/
theorem strip_eq_self_iff {t : Text} : strip t = t ↔ TagFree t := by
  constructor
  · intro h
    rw [← h]
    exact tagFree_strip t
  · intro h
    rw [strip, dif_pos h.stripOnce_eq]

end PagePress.Cleanup
