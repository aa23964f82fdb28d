/-
  PagePress.Proofs.Text.Blank

  Trimming and words.

  A trimmed text is the part of a text between the blanks at its ends, and
  these blanks belong to no word (`words_trim`).
-/

import Mathlib.Data.List.Basic
import PagePress.Text.Blank

namespace PagePress.Text

/-! ## Trimming -/

/-- A text is what remains of it when its end is trimmed, and blanks. -/
theorem trimEnd_append_blanks (t : Text) :
    ∃ bs, (∀ c ∈ bs, isBlank c = true) ∧ t = trimEnd t ++ bs := by
  refine ⟨(t.reverse.takeWhile isBlank).reverse, fun c hc => ?_, ?_⟩
  · exact List.all_eq_true.1 List.all_takeWhile c (List.mem_reverse.1 hc)
  · rw [trimEnd, ← List.reverse_append, List.takeWhile_append_dropWhile, List.reverse_reverse]

theorem trim_infix (t : Text) : trim t <:+: t := by
  obtain ⟨bs, -, heq⟩ := trimEnd_append_blanks (trimStart t)
  have hstart : trimStart t <:+: t := (List.dropWhile_suffix isBlank).isInfix
  have hend : trim t <:+: trimStart t := ⟨[], bs, heq.symm⟩
  exact hend.trans hstart

/-- Where blanks were dropped, none is next. -/
theorem head?_dropWhile_isBlank (t : Text) :
    ∀ c ∈ (t.dropWhile isBlank).head?, isBlank c = false := by
  intro c hc
  have h := List.head?_dropWhile_not isBlank t
  rw [Option.mem_def.1 hc] at h
  exact h

theorem trim_head? (t : Text) : ∀ c ∈ (trim t).head?, isBlank c = false := by
  obtain ⟨bs, -, heq⟩ := trimEnd_append_blanks (trimStart t)
  intro c hc
  apply head?_dropWhile_isBlank t c
  show c ∈ (trimStart t).head?
  rw [heq, List.head?_append]
  rw [trim] at hc
  rw [Option.mem_def.1 hc]
  rfl

/-- Trimming the end leaves the start. -/
theorem trim_head?_eq (t : Text) : (trim t).head? = (trimStart t).head? := by
  obtain ⟨bs, hbs, heq⟩ := trimEnd_append_blanks (trimStart t)
  cases htrim : trim t with
  | cons c u =>
      rw [← trim, htrim] at heq
      rw [heq]
      rfl
  | nil =>
      -- blanks alone would have been dropped at the start
      rw [← trim, htrim, List.nil_append] at heq
      cases bs with
      | nil => rw [heq]
      | cons b bs =>
          have hb := head?_dropWhile_isBlank t b (by rw [← trimStart, heq]; rfl)
          rw [hbs b List.mem_cons_self] at hb
          exact Bool.noConfusion hb

theorem trim_getLast? (t : Text) : ∀ c ∈ (trim t).getLast?, isBlank c = false := by
  rw [trim, trimEnd, List.getLast?_reverse]
  exact head?_dropWhile_isBlank _

/-- A text with no blank at its ends has nothing to trim. -/
theorem trim_eq_self {t : Text} (hstart : ∀ c ∈ t.head?, isBlank c = false)
    (hstop : ∀ c ∈ t.getLast?, isBlank c = false) : trim t = t := by
  have hleft : trimStart t = t := by
    cases t with
    | nil => rfl
    | cons c t =>
        rw [trimStart, List.dropWhile_cons, hstart c rfl]
        rfl
  rw [trim, hleft, trimEnd]
  cases hr : t.reverse with
  | nil => rw [List.reverse_eq_nil_iff.1 hr]; rfl
  | cons c r =>
      have hlast : t.getLast? = some c := by rw [← List.head?_reverse, hr]; rfl
      rw [List.dropWhile_cons, hstop c hlast, ← hr]
      exact List.reverse_reverse t

theorem trim_append_eq_self {s t : Text} (hs : s ≠ []) (hstart : ∀ c ∈ s.head?, isBlank c = false)
    (ht : t ≠ []) (hstop : ∀ c ∈ t.getLast?, isBlank c = false) : trim (s ++ t) = s ++ t := by
  apply trim_eq_self
  · rwa [List.head?_append_of_ne_nil _ hs]
  · rwa [List.getLast?_append_of_ne_nil _ ht]

theorem trim_cons_blank {c : Char} (h : isBlank c = true) (t : Text) : trim (c :: t) = trim t := by
  rw [trim, trimStart, List.dropWhile_cons_of_pos h, ← trimStart, ← trim]

theorem trimStart_append_blank {c : Char} (h : isBlank c = true) (t : Text) :
    trimStart (t ++ [c]) = if (trimStart t).isEmpty then [] else trimStart t ++ [c] := by
  rw [trimStart, List.dropWhile_append, List.dropWhile_cons_of_pos h, List.dropWhile_nil]
  rfl

theorem trim_append_blank {c : Char} (h : isBlank c = true) (t : Text) :
    trim (t ++ [c]) = trim t := by
  rw [trim, trim, trimStart_append_blank h]
  split
  · next hnil => rw [List.isEmpty_iff.1 hnil]
  · rw [trimEnd, trimEnd, List.reverse_concat, List.dropWhile_cons_of_pos h]

/-- Trimming takes away blanks only. -/
theorem mem_trim {c : Char} {t : Text} (h : c ∈ t) (hc : isBlank c = false) : c ∈ trim t := by
  obtain ⟨bs, hbs, heq⟩ := trimEnd_append_blanks (trimStart t)
  rw [← List.takeWhile_append_dropWhile (p := isBlank) (l := t), List.mem_append] at h
  rcases h with h | h
  · rw [List.all_eq_true.1 List.all_takeWhile c h] at hc
    exact Bool.noConfusion hc
  · rw [← trimStart, heq, List.mem_append] at h
    rcases h with h | h
    · exact h
    · rw [hbs c h] at hc
      exact Bool.noConfusion hc

/-! ## Words -/

theorem words_blank {c : Char} (h : isBlank c = true) (t : Text) : words (c :: t) = words t := by
  rw [words, if_pos h]

/-- The first word depends on the first character, on whether another one follows it, and on the
    words of the rest. -/
theorem words_cons_congr (c : Char) {t u : Text} (hw : words t = words u)
    (hh : t.head?.all isBlank = u.head?.all isBlank) : words (c :: t) = words (c :: u) := by
  rw [words, words, hw, hh]

theorem words_trimStart (t : Text) : words (trimStart t) = words t := by
  unfold trimStart
  induction t with
  | nil => rfl
  | cons c t ih =>
      by_cases hc : isBlank c = true
      · rw [List.dropWhile_cons_of_pos hc, ih, words_blank hc]
      · rw [List.dropWhile_cons_of_neg hc]

theorem words_append_blanks (t : Text) {bs : Text} (h : ∀ c ∈ bs, isBlank c = true) :
    words (t ++ bs) = words t := by
  induction t with
  | nil =>
      induction bs with
      | nil => rfl
      | cons c bs ih =>
          rw [List.nil_append, words_blank (h c List.mem_cons_self)]
          exact ih fun d hd => h d (List.mem_cons_of_mem c hd)
  | cons c t ih =>
      refine words_cons_congr c ih ?_
      cases t with
      | cons d t => rfl
      | nil =>
          cases bs with
          | nil => rfl
          | cons d bs => exact h d List.mem_cons_self

/-- Blanks at the ends belong to no word. -/
theorem words_trim (t : Text) : words (trim t) = words t := by
  obtain ⟨bs, hbs, heq⟩ := trimEnd_append_blanks (trimStart t)
  calc
    words (trim t) = words (trimEnd (trimStart t) ++ bs) := (words_append_blanks _ hbs).symm
    _ = words (trimStart t) := by rw [← heq]
    _ = words t := words_trimStart t

end PagePress.Text
