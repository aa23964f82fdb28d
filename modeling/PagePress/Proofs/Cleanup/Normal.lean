/-
  PagePress.Proofs.Cleanup.Normal

  The normal form of a page.

  A text is normal when it has no leftover tag, no two blanks in a row within
  a line, no blank at the end of a line, no two empty lines in a row, and no
  blank at its ends.  Cleanup brings every text into this form, leaves a
  normal text alone, and keeps the words that remain when the leftover tags
  are gone (`cleanup_normalizes`).
-/

import Mathlib.Data.List.Chain
import PagePress.Proofs.Cleanup.Spacing

namespace PagePress

open Text (isBlank isInlineBlank words)

namespace Cleanup

/-! ## Blanks -/

/-- No two blanks within a line stand next to each other. -/
def SingleBlanks (t : Text) : Prop :=
  t.IsChain fun a b => isInlineBlank a = true → isInlineBlank b = false

/-- After a blank within a line stands something that is not blank. -/
def LoneBlanks (t : Text) : Prop :=
  t.IsChain fun a b => isInlineBlank a = true → isBlank b = false

theorem isBlank_of_isInlineBlank {c : Char} (h : isInlineBlank c = true) : isBlank c = true := by
  rw [isInlineBlank, Bool.and_eq_true] at h
  exact h.1

/-- A blank either stands within a line or ends one. -/
theorem isBlank_eq_false_iff {c : Char} :
    isBlank c = false ↔ isInlineBlank c = false ∧ c ≠ '\n' := by
  by_cases hc : c = '\n'
  · subst hc
    decide
  · simp [isInlineBlank, hc]

theorem exists_of_startsWith {p : Char → Bool} {t : Text} (h : startsWith p t = true) :
    ∃ c cs, t = c :: cs ∧ p c = true := by
  cases t with
  | nil => exact absurd h Bool.false_ne_true
  | cons c cs => exact ⟨c, cs, rfl, h⟩

/-! ## Line ends -/

theorem respaced_unifyLineEnds (t : Text) : Respaced t (unifyLineEnds t) := by
  induction t with
  | nil => exact .nil
  | cons c t ih =>
      rw [unifyLineEnds]
      split
      · -- the carriage return stands before the newline, and both are blank
        rename_i h
        rw [Bool.and_eq_true] at h
        obtain ⟨hc, hn⟩ := h
        obtain ⟨d, t, rfl, hd⟩ := exists_of_startsWith hn
        obtain rfl := eq_of_beq hc
        obtain rfl := eq_of_beq hd
        exact .drop (by decide) (by decide) ih
      · exact .keep c ih

theorem LoneBlanks.unifyLineEnds_eq {t : Text} (h : LoneBlanks t) : unifyLineEnds t = t := by
  induction t with
  | nil => rfl
  | cons c t ih =>
      obtain ⟨hhead, htail⟩ := List.isChain_cons.1 h
      rw [unifyLineEnds, ih htail, if_neg]
      intro hif
      rw [Bool.and_eq_true] at hif
      obtain ⟨d, t, rfl, hd⟩ := exists_of_startsWith hif.2
      obtain rfl := eq_of_beq hif.1
      obtain rfl := eq_of_beq hd
      exact absurd (hhead '\n' rfl (by decide)) (by decide)

theorem unifyLineEnds_of_not_mem {t : Text} (h : '\n' ∉ t) : unifyLineEnds t = t := by
  induction t with
  | nil => rfl
  | cons c t ih =>
      rw [List.mem_cons, not_or] at h
      rw [unifyLineEnds, ih h.2, if_neg]
      intro hif
      rw [Bool.and_eq_true] at hif
      obtain ⟨d, t, rfl, hd⟩ := exists_of_startsWith hif.2
      obtain rfl := eq_of_beq hd
      exact h.2 List.mem_cons_self

/-! ## Runs of blanks -/

/-- A run of blanks leaves a blank. -/
theorem squeezeBlanks_starts {t : Text} (h : startsWith isInlineBlank t = true) :
    ∃ b u, squeezeBlanks t = b :: u ∧ isInlineBlank b = true := by
  obtain ⟨c, t, rfl, hc⟩ := exists_of_startsWith h
  rw [squeezeBlanks]
  split
  · exact ⟨' ', _, rfl, by decide⟩
  · exact ⟨c, _, rfl, hc⟩

/-- Without a blank at the start there is none afterwards. -/
theorem squeezeBlanks_head? {t : Text} (h : startsWith isInlineBlank t = false) :
    (squeezeBlanks t).head? = t.head? := by
  cases t with
  | nil => rfl
  | cons c t =>
      have hc : isInlineBlank c = false := h
      rw [squeezeBlanks, hc, Bool.false_and]
      rfl

theorem respaced_squeezeBlanks (t : Text) : Respaced t (squeezeBlanks t) := by
  induction t with
  | nil => exact .nil
  | cons c t ih =>
      rw [squeezeBlanks]
      split
      · rename_i h
        rw [Bool.and_eq_true] at h
        obtain ⟨b, u, hu, hb⟩ := squeezeBlanks_starts h.2
        rw [hu] at ih ⊢
        -- one blank of the run is dropped and the one left becomes a space
        have hblank := isBlank_of_isInlineBlank hb
        exact .drop (isBlank_of_isInlineBlank h.1) (by decide) (ih.head hblank (by decide))
      · exact .keep c ih

theorem singleBlanks_squeezeBlanks (t : Text) : SingleBlanks (squeezeBlanks t) := by
  induction t with
  | nil => exact .nil
  | cons c t ih =>
      rw [squeezeBlanks]
      split
      · rename_i h
        rw [Bool.and_eq_true] at h
        obtain ⟨b, u, hu, hb⟩ := squeezeBlanks_starts h.2
        rw [hu] at ih ⊢
        -- what follows the first blank of the run follows the space as well
        obtain ⟨hhead, htail⟩ := List.isChain_cons.1 ih
        exact htail.cons fun d hd _ => hhead d hd hb
      · rename_i h
        refine ih.cons fun d hd hc => ?_
        rw [hc, Bool.true_and, Bool.not_eq_true] at h
        rw [squeezeBlanks_head? h] at hd
        cases t with
        | nil => simp at hd
        | cons e t =>
            obtain rfl := Option.mem_some.1 hd
            exact h

theorem SingleBlanks.squeezeBlanks_eq {t : Text} (h : SingleBlanks t) : squeezeBlanks t = t := by
  induction t with
  | nil => rfl
  | cons c t ih =>
      obtain ⟨hhead, htail⟩ := List.isChain_cons.1 h
      rw [squeezeBlanks, ih htail, if_neg]
      intro hif
      rw [Bool.and_eq_true] at hif
      obtain ⟨d, t, rfl, hd⟩ := exists_of_startsWith hif.2
      rw [hhead d rfl hif.1] at hd
      exact Bool.noConfusion hd

theorem LoneBlanks.single {t : Text} (h : LoneBlanks t) : SingleBlanks t :=
  List.IsChain.imp (fun _ _ hab ha => (isBlank_eq_false_iff.1 (hab ha)).1) h

/-! ## Ends of lines -/

/-- What is no blank within a line stays where it is. -/
theorem trimLineEnds_cons {c : Char} (hc : isInlineBlank c = false) (t : Text) :
    trimLineEnds (c :: t) = c :: trimLineEnds t := by
  rw [trimLineEnds, hc, Bool.false_and]
  rfl

theorem respaced_trimLineEnds (t : Text) : Respaced t (trimLineEnds t) := by
  induction t with
  | nil => exact .nil
  | cons c t ih =>
      rw [trimLineEnds]
      split
      · rename_i h
        rw [Bool.and_eq_true] at h
        obtain ⟨d, u, hu, hd⟩ := exists_of_startsWith h.2
        obtain rfl := eq_of_beq hd
        rw [hu] at ih ⊢
        exact .drop (isBlank_of_isInlineBlank h.1) (by decide) ih
      · exact .keep c ih

theorem SingleBlanks.loneBlanks_trimLineEnds {t : Text} (h : SingleBlanks t) :
    LoneBlanks (trimLineEnds t) := by
  induction t with
  | nil => exact .nil
  | cons c t ih =>
      obtain ⟨hhead, htail⟩ := List.isChain_cons.1 h
      rw [trimLineEnds]
      split
      · exact ih htail
      · rename_i hif
        refine (ih htail).cons fun d hd hc => ?_
        rw [hc, Bool.true_and] at hif
        cases t with
        | nil => simp [trimLineEnds] at hd
        | cons e t =>
            -- the blank stood alone, so what followed it is still there
            have he := hhead e rfl hc
            rw [trimLineEnds_cons he] at hd hif
            obtain rfl := Option.mem_some.1 hd
            exact isBlank_eq_false_iff.2 ⟨he, fun hn => hif (beq_iff_eq.2 hn)⟩

theorem LoneBlanks.trimLineEnds_eq {t : Text} (h : LoneBlanks t) : trimLineEnds t = t := by
  induction t with
  | nil => rfl
  | cons c t ih =>
      obtain ⟨hhead, htail⟩ := List.isChain_cons.1 h
      rw [trimLineEnds, ih htail, if_neg]
      intro hif
      rw [Bool.and_eq_true] at hif
      obtain ⟨d, t, rfl, hd⟩ := exists_of_startsWith hif.2
      obtain rfl := eq_of_beq hd
      exact absurd (hhead '\n' rfl hif.1) (by decide)

theorem trimLineEnds_of_not_mem {t : Text} (h : '\n' ∉ t) : trimLineEnds t = t := by
  induction t with
  | nil => rfl
  | cons c t ih =>
      rw [List.mem_cons, not_or] at h
      rw [trimLineEnds, ih h.2, if_neg]
      intro hif
      rw [Bool.and_eq_true] at hif
      obtain ⟨d, t, rfl, hd⟩ := exists_of_startsWith hif.2
      obtain rfl := eq_of_beq hd
      exact h.2 List.mem_cons_self

/-! ## Empty lines -/

theorem limitEmptyLines_head? (t : Text) : (limitEmptyLines t).head? = t.head? := by
  cases t with
  | nil => rfl
  | cons c t =>
      rw [limitEmptyLines]
      split
      · rename_i h
        rw [Bool.and_eq_true] at h
        obtain ⟨rest, hrest⟩ := List.isPrefixOf_iff_prefix.1 h.2
        rw [← hrest, eq_of_beq h.1]
        rfl
      · rfl

theorem respaced_limitEmptyLines (t : Text) : Respaced t (limitEmptyLines t) := by
  induction t with
  | nil => exact .nil
  | cons c t ih =>
      rw [limitEmptyLines]
      split
      · -- a newline is dropped where two follow it
        rename_i h
        rw [Bool.and_eq_true] at h
        obtain ⟨rest, hrest⟩ := List.isPrefixOf_iff_prefix.1 h.2
        rw [← hrest] at ih ⊢
        obtain rfl := eq_of_beq h.1
        exact .drop (by decide) (by decide) ih
      · exact .keep c ih

theorem LoneBlanks.limitEmptyLines {t : Text} (h : LoneBlanks t) :
    LoneBlanks (limitEmptyLines t) := by
  induction t with
  | nil => exact .nil
  | cons c t ih =>
      obtain ⟨hhead, htail⟩ := List.isChain_cons.1 h
      rw [Cleanup.limitEmptyLines]
      split
      · exact ih htail
      · refine (ih htail).cons fun d hd => ?_
        rw [limitEmptyLines_head?] at hd
        exact hhead d hd

theorem not_infix_limitEmptyLines (t : Text) :
    ¬ ['\n', '\n', '\n'] <:+: limitEmptyLines t := by
  induction t with
  | nil => exact fun h => absurd h.length_le (by decide)
  | cons c t ih =>
      rw [limitEmptyLines]
      split
      · exact ih
      · rename_i hif
        rw [List.infix_cons_iff]
        rintro (h | h)
        · obtain ⟨hc, hp⟩ := List.cons_prefix_cons.1 h
          exact hif (Bool.and_eq_true_iff.2
            ⟨beq_iff_eq.2 hc.symm, List.isPrefixOf_iff_prefix.2 hp⟩)
        · exact ih h

theorem limitEmptyLines_eq {t : Text} (h : ¬ ['\n', '\n', '\n'] <:+: t) :
    limitEmptyLines t = t := by
  induction t with
  | nil => rfl
  | cons c t ih =>
      rw [limitEmptyLines, ih fun hi => h (List.infix_cons hi), if_neg]
      intro hif
      rw [Bool.and_eq_true, beq_iff_eq, List.isPrefixOf_iff_prefix] at hif
      obtain ⟨rfl, hp⟩ := hif
      exact h (List.cons_prefix_cons.2 ⟨rfl, hp⟩).isInfix

theorem limitEmptyLines_of_not_mem {t : Text} (h : '\n' ∉ t) : limitEmptyLines t = t :=
  limitEmptyLines_eq fun hi => h (hi.subset List.mem_cons_self)

end Cleanup

/-! ## The normal form -/

/-- The normal form of a page. -/
structure Normal (t : Text) : Prop where
  /-- What stands between double braces, without a brace in it, is a marker. -/
  tagFree : Cleanup.TagFree t
  /-- Within a line no two blanks stand next to each other. -/
  single : ∀ a b, [a, b] <:+: t → ¬(isInlineBlank a = true ∧ isInlineBlank b = true)
  /-- No line ends with a blank. -/
  lineEnd : ∀ a, [a, '\n'] <:+: t → isInlineBlank a = false
  /-- No two empty lines stand next to each other. -/
  emptyLine : ¬ ['\n', '\n', '\n'] <:+: t
  /-- The first character is not blank. -/
  start : ∀ c ∈ t.head?, isBlank c = false
  /-- The last character is not blank. -/
  stop : ∀ c ∈ t.getLast?, isBlank c = false

namespace Cleanup

theorem loneBlanks_iff {t : Text} :
    LoneBlanks t ↔ (∀ a b, [a, b] <:+: t → ¬(isInlineBlank a = true ∧ isInlineBlank b = true)) ∧
      ∀ a, [a, '\n'] <:+: t → isInlineBlank a = false := by
  constructor
  · intro h
    have hpair : ∀ a b, [a, b] <:+: t → isInlineBlank a = true → isBlank b = false :=
      fun a b hi => List.isChain_pair.1 <| List.IsChain.infix h hi
    refine ⟨fun a b hi hab => ?_, fun a hi => Bool.eq_false_iff.2 fun ha => ?_⟩
    · have hb := (isBlank_eq_false_iff.1 (hpair a b hi hab.1)).1
      rw [hab.2] at hb
      exact Bool.noConfusion hb
    · exact absurd (hpair a '\n' hi ha) (by decide)
  · rintro ⟨hsingle, hline⟩
    refine (List.isChain_isInfix t).imp fun a b hi ha => isBlank_eq_false_iff.2 ⟨?_, ?_⟩
    · exact Bool.eq_false_iff.2 fun hb => hsingle a b hi ⟨ha, hb⟩
    · rintro rfl
      rw [hline a hi] at ha
      exact Bool.noConfusion ha

end Cleanup

namespace Normal

theorem loneBlanks {t : Text} (h : Normal t) : Cleanup.LoneBlanks t :=
  Cleanup.loneBlanks_iff.2 ⟨h.single, h.lineEnd⟩

end Normal

theorem normal_cleanup (t : Text) : Normal (cleanup t) := by
  -- each property holds from the step on that brings it about, and no later step breaks it
  have hlone := ((Cleanup.singleBlanks_squeezeBlanks
    (Cleanup.unifyLineEnds (Cleanup.strip t))).loneBlanks_trimLineEnds).limitEmptyLines
  have htag := (Cleanup.respaced_limitEmptyLines _).tagFree
    ((Cleanup.respaced_trimLineEnds _).tagFree
      ((Cleanup.respaced_squeezeBlanks _).tagFree
        ((Cleanup.respaced_unifyLineEnds _).tagFree (Cleanup.tagFree_strip t))))
  have hlines := Cleanup.not_infix_limitEmptyLines
    (Cleanup.trimLineEnds (Cleanup.squeezeBlanks (Cleanup.unifyLineEnds (Cleanup.strip t))))
  -- what is left when the ends are trimmed is a part of the text
  have hinfix : cleanup t <:+: _ := Text.trim_infix _
  obtain ⟨hsingle, hline⟩ := Cleanup.loneBlanks_iff.1 hlone
  exact {
    tagFree := htag.of_infix hinfix
    single := fun a b hi => hsingle a b (hi.trans hinfix)
    lineEnd := fun a hi => hline a (hi.trans hinfix)
    emptyLine := fun hi => hlines (hi.trans hinfix)
    start := Text.trim_head? _
    stop := Text.trim_getLast? _ }

theorem Normal.cleanup_eq {t : Text} (h : Normal t) : cleanup t = t := by
  have hlone := h.loneBlanks
  rw [cleanup, Cleanup.strip_eq_self_iff.2 h.tagFree, hlone.unifyLineEnds_eq,
    hlone.single.squeezeBlanks_eq, hlone.trimLineEnds_eq,
    Cleanup.limitEmptyLines_eq h.emptyLine, Text.trim_eq_self h.start h.stop]

theorem words_cleanup (t : Text) : words (cleanup t) = words (Cleanup.strip t) := by
  rw [cleanup, Text.words_trim, ← (Cleanup.respaced_limitEmptyLines _).words_eq.1,
    ← (Cleanup.respaced_trimLineEnds _).words_eq.1, ← (Cleanup.respaced_squeezeBlanks _).words_eq.1,
    ← (Cleanup.respaced_unifyLineEnds _).words_eq.1]

/-- Cleanup brings every text into the normal form, a text stays as it is exactly if it is normal,
    a second cleanup changes nothing, and the words are those that remain without the leftover
    tags. -/
theorem cleanup_normalizes (t : Text) :
    Normal (cleanup t) ∧ (cleanup t = t ↔ Normal t) ∧ cleanup (cleanup t) = cleanup t ∧
      words (cleanup t) = words (Cleanup.strip t) := by
  refine ⟨normal_cleanup t, ⟨fun h => ?_, Normal.cleanup_eq⟩, (normal_cleanup t).cleanup_eq,
    words_cleanup t⟩
  rw [← h]
  exact normal_cleanup t

end PagePress
