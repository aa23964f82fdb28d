/-
  PagePress.Proofs.Cleanup.Spacing

  Changes to the blanks of a text.

  The steps of the cleanup that deal with blanks only drop a blank next to
  another one or turn one into another (`Respaced`); the last one trims the
  ends.  No such change touches the words of a text, and none makes a tag
  out of braces that stood apart.
-/

import PagePress.Proofs.Cleanup.Leftover
import PagePress.Proofs.Text.Blank

namespace PagePress

open Text (isBlank isInlineBlank words)

namespace Cleanup

/-! ## Respacing -/

/-- The second text is the first with some blanks turned into other blanks and some dropped that
    stood before another blank. -/
inductive Respaced : Text → Text → Prop where
  | nil : Respaced [] []
  | keep (c : Char) {t u : Text} (rest : Respaced t u) : Respaced (c :: t) (c :: u)
  | change {b b' : Char} {t u : Text} (hb : isBlank b = true) (hb' : isBlank b' = true)
      (rest : Respaced t u) : Respaced (b :: t) (b' :: u)
  | drop {b b' : Char} {t u : Text} (hb : isBlank b = true) (hb' : isBlank b' = true)
      (rest : Respaced t (b' :: u)) : Respaced (b :: t) (b' :: u)

namespace Respaced

theorem head {t u : Text} {b b' : Char} (h : Respaced t (b :: u)) (hb : isBlank b = true)
    (hb' : isBlank b' = true) : Respaced t (b' :: u) := by
  generalize hv : b :: u = v at h
  induction h with
  | nil => simp at hv
  | keep c rest _ =>
      obtain ⟨rfl, rfl⟩ := List.cons.inj hv
      exact .change hb hb' rest
  | change hc _ rest _ =>
      obtain ⟨rfl, rfl⟩ := List.cons.inj hv
      exact .change hc hb' rest
  | drop hc _ _ ih => exact .drop hc hb' (ih hv)

/-! ## What respacing keeps -/

theorem words_eq {t u : Text} (h : Respaced t u) :
    words t = words u ∧ t.head?.all isBlank = u.head?.all isBlank := by
  induction h with
  | nil => exact ⟨rfl, rfl⟩
  | keep c _ ih => exact ⟨Text.words_cons_congr c ih.1 ih.2, rfl⟩
  | change hb hb' _ ih =>
      refine ⟨?_, hb.trans hb'.symm⟩
      rw [Text.words_blank hb, Text.words_blank hb', ih.1]
  | drop hb hb' _ ih =>
      refine ⟨?_, hb.trans hb'.symm⟩
      rw [Text.words_blank hb, ih.1]

/-- A character that is not blank comes from itself. -/
theorem cons_solid {t u : Text} {c : Char} (h : Respaced t (c :: u)) (hc : isBlank c = false) :
    ∃ t', t = c :: t' ∧ Respaced t' u := by
  cases h with
  | keep _ rest => exact ⟨_, rfl, rest⟩
  | change _ hb' _ =>
      rw [hc] at hb'
      exact Bool.noConfusion hb'
  | drop _ hb' _ =>
      rw [hc] at hb'
      exact Bool.noConfusion hb'

/-- A respaced text in two parts comes from a text in two parts. -/
theorem split {t u v : Text} (h : Respaced t (u ++ v)) :
    ∃ t₁ t₂, t = t₁ ++ t₂ ∧ Respaced t₁ u ∧ Respaced t₂ v := by
  generalize hw : u ++ v = w at h
  induction h generalizing u with
  | nil =>
      obtain ⟨rfl, rfl⟩ := List.append_eq_nil_iff.1 hw
      exact ⟨[], [], rfl, .nil, .nil⟩
  | keep c rest ih =>
      cases u with
      | nil => exact ⟨[], _, rfl, .nil, by rw [List.nil_append] at hw; rw [hw]; exact .keep c rest⟩
      | cons d u =>
          rw [List.cons_append, List.cons.injEq] at hw
          obtain ⟨rfl, hw⟩ := hw
          obtain ⟨t₁, t₂, rfl, h₁, h₂⟩ := ih hw
          exact ⟨_ :: t₁, t₂, rfl, .keep _ h₁, h₂⟩
  | @change b b' t w hb hb' rest ih =>
      cases u with
      | nil =>
          rw [List.nil_append] at hw
          rw [hw]
          exact ⟨[], b :: t, rfl, .nil, .change hb hb' rest⟩
      | cons d u =>
          rw [List.cons_append, List.cons.injEq] at hw
          obtain ⟨rfl, hw⟩ := hw
          obtain ⟨t₁, t₂, rfl, h₁, h₂⟩ := ih hw
          exact ⟨b :: t₁, t₂, rfl, .change hb hb' h₁, h₂⟩
  | @drop b b' t w hb hb' rest ih =>
      cases u with
      | nil =>
          rw [List.nil_append] at hw
          rw [hw]
          exact ⟨[], b :: t, rfl, .nil, .drop hb hb' rest⟩
      | cons d u =>
          obtain ⟨rfl, -⟩ := List.cons.inj hw
          obtain ⟨t₁, t₂, rfl, h₁, h₂⟩ := ih hw
          exact ⟨b :: t₁, t₂, rfl, .drop hb hb' h₁, h₂⟩

/-- The first character that is not blank stays the first. -/
theorem trimStart_head? {t u : Text} (h : Respaced t u) :
    (Text.trimStart t).head? = (Text.trimStart u).head? := by
  unfold Text.trimStart
  induction h with
  | nil => rfl
  | keep c _ ih =>
      by_cases hc : isBlank c = true
      · rw [List.dropWhile_cons_of_pos hc, List.dropWhile_cons_of_pos hc, ih]
      · rw [List.dropWhile_cons_of_neg hc, List.dropWhile_cons_of_neg hc]
        rfl
  | change hb hb' _ ih => rw [List.dropWhile_cons_of_pos hb, List.dropWhile_cons_of_pos hb', ih]
  | drop hb _ _ ih => rw [List.dropWhile_cons_of_pos hb, ih]

/-- What makes a tag a marker stays. -/
theorem isMarker_eq {t u : Text} (h : Respaced t u) : isMarker t = isMarker u := by
  rw [isMarker, isMarker, h.trimStart_head?]

theorem isContent_of_isBlank {c : Char} (h : isBlank c = true) : isContent c = true := by
  by_cases hopen : c = '{'
  · subst hopen
    exact absurd h (by decide)
  · by_cases hclose : c = '}'
    · subst hclose
      exact absurd h (by decide)
    · simp [isContent, isBrace, hopen, hclose]

/-- A text without braces comes from one. -/
theorem all_isContent {t u : Text} (h : Respaced t u) (hu : u.all isContent = true) :
    t.all isContent = true := by
  induction h with
  | nil => rfl
  | keep c _ ih =>
      rw [List.all_cons, Bool.and_eq_true] at hu ⊢
      exact ⟨hu.1, ih hu.2⟩
  | change hb _ _ ih =>
      rw [List.all_cons, Bool.and_eq_true] at hu ⊢
      exact ⟨isContent_of_isBlank hb, ih hu.2⟩
  | drop hb _ _ ih =>
      rw [List.all_cons, Bool.and_eq_true]
      exact ⟨isContent_of_isBlank hb, ih hu⟩

/-- A tag in a respaced text comes from a tag. -/
theorem braced_infix {t u content : Text} (h : Respaced t u) (hi : braced content <:+: u) :
    ∃ content', braced content' <:+: t ∧ Respaced content' content := by
  obtain ⟨before, after, rfl⟩ := hi
  have hbrace : isBlank '{' = false ∧ isBlank '}' = false := by decide
  rw [List.append_assoc] at h
  obtain ⟨t₁, t₂, rfl, -, h₂⟩ := h.split
  obtain ⟨t₃, rfl, h₃⟩ := h₂.cons_solid hbrace.1
  obtain ⟨t₄, rfl, h₄⟩ := h₃.cons_solid hbrace.1
  have heq : (content ++ ['}', '}']).append after = content ++ '}' :: '}' :: after := by simp
  rw [heq] at h₄
  obtain ⟨content', t₅, rfl, hcontent, h₅⟩ := h₄.split
  obtain ⟨t₆, rfl, h₆⟩ := h₅.cons_solid hbrace.2
  obtain ⟨t₇, rfl, -⟩ := h₆.cons_solid hbrace.2
  exact ⟨content', ⟨t₁, t₇, by simp [braced]⟩, hcontent⟩

/-- No leftover tag arises. -/
theorem tagFree {t u : Text} (h : Respaced t u) (ht : TagFree t) : TagFree u := by
  intro content hi hc
  obtain ⟨content', hi', hcontent⟩ := h.braced_infix hi
  rw [← hcontent.isMarker_eq]
  exact ht content' hi' (hcontent.all_isContent hc)

end Respaced

end Cleanup

end PagePress
