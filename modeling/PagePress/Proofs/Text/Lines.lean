/-
  PagePress.Proofs.Text.Lines

  Lines, and what occurs in them.

  A text without a newline is a single line; otherwise its first line is what
  stands before the first newline, without the carriage return that may stand
  at its end (`lines_append_newline`).  So lines of a kind are counted on either
  side of a newline (`countP_lines_append_newline`), and a word occurs in a line
  of a text exactly if it occurs in the text, holds no newline, and does not end
  with the carriage return of a line end (`exists_line_iff`).
-/

import Mathlib.Data.List.Infix
import PagePress.Text.Lines

namespace PagePress.Text

/-! ## Searching -/

theorem occursIn_iff {part t : Text} : occursIn part t = true ↔ part <:+: t := by
  induction t with
  | nil => rw [occursIn, List.isEmpty_iff, List.infix_nil]
  | cons c t ih =>
      rw [occursIn, Bool.or_eq_true, List.isPrefixOf_iff_prefix, ih, List.infix_cons_iff]

/-! ## First lines -/

/-- A line without the carriage return that belongs to its end. -/
def dropReturn (line : Text) : Text :=
  if line.getLast? = some '\r' then line.dropLast else line

theorem dropReturn_append (line : Text) : dropReturn (line ++ ['\r']) = line := by
  rw [dropReturn, if_pos List.getLast?_concat, List.dropLast_concat]

theorem dropReturn_eq_self {line : Text} (h : line.getLast? ≠ some '\r') :
    dropReturn line = line := if_neg h

theorem dropReturn_cons {c : Char} {line : Text} (h : c = '\r' → line ≠ []) :
    dropReturn (c :: line) = c :: dropReturn line := by
  cases line with
  | nil => exact dropReturn_eq_self fun hc => h (Option.some.inj hc) rfl
  | cons d line =>
      rw [dropReturn, dropReturn, List.getLast?_cons_cons, List.dropLast_cons_cons]
      split <;> rfl

/-- A character that does not belong to a line end joins the first line. -/
theorem lines_cons {c : Char} {t : Text} (hc : c ≠ '\n') (h : c = '\r' → t.head? ≠ some '\n') :
    lines (c :: t) = match lines t with
      | [] => [[c]]
      | line :: rest => (c :: line) :: rest := by
  have hreturn : ∀ u, c = '\r' → t = '\n' :: u → False := by
    rintro u rfl rfl
    exact h rfl rfl
  exact lines.eq_4 c t hreturn hc

theorem lines_of_not_mem {t : Text} (h : '\n' ∉ t) (hne : t ≠ []) : lines t = [t] := by
  induction t with
  | nil => exact absurd rfl hne
  | cons c t ih =>
      obtain ⟨hc, ht⟩ := not_or.1 (List.mem_cons.not.1 h)
      rw [lines_cons (Ne.symm hc) fun _ hhead => ht (List.mem_of_mem_head? hhead)]
      cases t with
      | nil => rfl
      | cons d t => rw [ih ht (List.cons_ne_nil d t)]

theorem lines_append_newline {a : Text} (h : '\n' ∉ a) (b : Text) :
    lines (a ++ '\n' :: b) = dropReturn a :: lines b := by
  induction a with
  | nil => rfl
  | cons c a ih =>
      obtain ⟨hc, ha⟩ := not_or.1 (List.mem_cons.not.1 h)
      by_cases hreturn : c = '\r' ∧ a = []
      · obtain ⟨rfl, rfl⟩ := hreturn
        rfl
      · have hjoins : c = '\r' → (a ++ '\n' :: b).head? ≠ some '\n' := by
          rintro rfl hhead
          cases a with
          | nil => exact hreturn ⟨rfl, rfl⟩
          | cons d a => exact ha (List.mem_of_mem_head? (l := d :: a) hhead)
        rw [List.cons_append, lines_cons (Ne.symm hc) hjoins, ih ha,
          dropReturn_cons fun hr hnil => hreturn ⟨hr, hnil⟩]

/-- What holds of every text without a newline, and of a text because it holds of what follows its
    first newline, holds of all texts. -/
theorem newline_induction {P : Text → Prop} (last : ∀ t, '\n' ∉ t → P t)
    (next : ∀ a b, '\n' ∉ a → P b → P (a ++ '\n' :: b)) (t : Text) : P t := by
  -- on the number of newlines, each step takes away the first one
  induction hn : t.count '\n' generalizing t with
  | zero => exact last t (List.count_eq_zero.1 hn)
  | succ n ih =>
      have hmem : '\n' ∈ t := List.count_pos_iff.1 (by omega)
      obtain ⟨a, b, rfl, ha⟩ := List.eq_append_cons_of_mem hmem
      refine next a b ha (ih b ?_)
      rw [List.count_append, List.count_cons_self, List.count_eq_zero.2 ha] at hn
      omega

/-! ## Counting lines -/

/-- Lines are counted before a newline and behind it, if empty lines do not count and the carriage
    return that may stand before the newline makes no difference. -/
theorem countP_lines_append_newline {p : Text → Bool} (hempty : p [] = false) {a : Text}
    (hreturn : a.getLast? = some '\r' → ∀ line, p (line ++ ['\r']) = p line) (b : Text) :
    (lines (a ++ '\n' :: b)).countP p = (lines a).countP p + (lines b).countP p := by
  induction a using newline_induction with
  | last a ha =>
      have hfirst : p (dropReturn a) = p a := by
        by_cases hlast : a.getLast? = some '\r'
        · obtain ⟨line, rfl⟩ := List.getLast?_eq_some_iff.1 hlast
          rw [dropReturn_append, hreturn hlast]
        · rw [dropReturn_eq_self hlast]
      rw [lines_append_newline ha, List.countP_cons, hfirst, Nat.add_comm]
      cases a with
      | nil => rw [hempty]; rfl
      | cons c a => rw [lines_of_not_mem ha (List.cons_ne_nil c a), List.countP_singleton]
  | next a₁ a₂ ha ih =>
      have hlast (h : a₂.getLast? = some '\r') : (a₁ ++ '\n' :: a₂).getLast? = some '\r' := by
        rw [List.getLast?_append, List.getLast?_cons, h]
        rfl
      rw [List.append_assoc, List.cons_append, lines_append_newline ha, lines_append_newline ha,
        List.countP_cons, List.countP_cons, ih fun h => hreturn (hlast h)]
      omega

/-! ## Words in lines -/

/-- A word occurs in a text where no line end reaches into it. -/
def OccursInLine (word t : Text) : Prop :=
  ∃ front back, t = front ++ (word ++ back) ∧ '\n' ∉ word ∧
    ¬ (word.getLast? = some '\r' ∧ back.head? = some '\n')

variable {word a b t : Text}

theorem OccursInLine.isInfix (h : OccursInLine word t) : word <:+: t := by
  obtain ⟨front, back, rfl, -⟩ := h
  rw [← List.append_assoc]
  exact List.infix_append front word back

/-- Line ends matter only for words in which there is a newline or a carriage return at the end. -/
theorem occursInLine_iff_isInfix (hword : '\n' ∉ word) (hlast : word.getLast? ≠ some '\r') :
    OccursInLine word t ↔ word <:+: t := by
  refine ⟨OccursInLine.isInfix, ?_⟩
  rintro ⟨front, back, rfl⟩
  exact ⟨front, back, List.append_assoc .., hword, fun h => hlast h.1⟩

/-- In the last line a word may end with a carriage return. -/
theorem occursInLine_of_not_mem (h : '\n' ∉ t) : OccursInLine word t ↔ word <:+: t := by
  refine ⟨OccursInLine.isInfix, ?_⟩
  rintro ⟨front, back, rfl⟩
  rw [List.append_assoc, List.mem_append, List.mem_append, not_or, not_or] at h
  exact ⟨front, back, List.append_assoc .., h.2.1,
    fun hback => h.2.2 (List.mem_of_mem_head? hback.2)⟩

/-- Before a line end a word does not reach to its carriage return. -/
theorem infix_dropReturn_iff (hne : word ≠ []) :
    word <:+: dropReturn a ↔
      ∃ front back, a = front ++ (word ++ back) ∧ ¬ (word.getLast? = some '\r' ∧ back = []) := by
  by_cases hlast : a.getLast? = some '\r'
  · obtain ⟨line, rfl⟩ := List.getLast?_eq_some_iff.1 hlast
    rw [dropReturn_append]
    constructor
    · rintro ⟨front, back, rfl⟩
      exact ⟨front, back ++ ['\r'], by simp only [List.append_assoc],
        fun h => List.append_ne_nil_of_right_ne_nil back (List.cons_ne_nil _ _) h.2⟩
    · rintro ⟨front, back, heq, hback⟩
      rcases List.eq_nil_or_concat back with rfl | ⟨back, d, rfl⟩
      · rw [List.append_nil] at heq
        rw [heq, List.getLast?_append_of_ne_nil _ hne] at hlast
        exact absurd ⟨hlast, rfl⟩ hback
      · rw [List.concat_eq_append, ← List.append_assoc, ← List.append_assoc] at heq
        exact ⟨front, back, ((List.append_inj' heq rfl).1).symm⟩
  · rw [dropReturn_eq_self hlast]
    constructor
    · rintro ⟨front, back, rfl⟩
      refine ⟨front, back, List.append_assoc .., ?_⟩
      rintro ⟨hword, rfl⟩
      rw [List.append_nil, List.getLast?_append_of_ne_nil _ hne] at hlast
      exact hlast hword
    · rintro ⟨front, back, rfl, -⟩
      rw [← List.append_assoc]
      exact List.infix_append front word back

/-- A word occurs before a newline or behind it, but not across. -/
theorem occursInLine_append_newline (h : '\n' ∉ a) (hne : word ≠ []) :
    OccursInLine word (a ++ '\n' :: b) ↔ word <:+: dropReturn a ∨ OccursInLine word b := by
  rw [infix_dropReturn_iff hne]
  constructor
  · rintro ⟨front, back, heq, hword, hback⟩
    rcases List.append_eq_append_iff.1 heq with ⟨z, rfl, hz⟩ | ⟨z, rfl, hz⟩
    · cases z with
      | nil =>
          -- the word would start with the newline
          obtain ⟨d, rest, rfl⟩ := List.exists_cons_of_ne_nil hne
          obtain ⟨rfl, -⟩ := List.cons.inj hz
          exact absurd List.mem_cons_self hword
      | cons d z =>
          obtain ⟨-, rfl⟩ := List.cons.inj hz
          exact .inr ⟨z, back, rfl, hword, hback⟩
    · rcases List.append_eq_append_iff.1 hz with ⟨y, rfl, rfl⟩ | ⟨y, rfl, hy⟩
      · exact .inl ⟨front, y, rfl, fun hlast => hback ⟨hlast.1, by rw [hlast.2]; rfl⟩⟩
      · cases y with
        | nil =>
            rw [List.append_nil] at hword hback ⊢
            refine .inl ⟨front, [], by rw [List.append_nil], fun hlast => hback ⟨hlast.1, ?_⟩⟩
            rw [← List.nil_append back, ← hy]
            rfl
        | cons d y =>
            -- the newline would be in the word
            obtain ⟨rfl, -⟩ := List.cons.inj hy
            exact absurd (List.mem_append_right z List.mem_cons_self) hword
  · rintro (⟨front, back, rfl, hback⟩ | ⟨front, back, rfl, hword, hback⟩)
    · rw [List.mem_append, List.mem_append, not_or, not_or] at h
      refine ⟨front, back ++ '\n' :: b, by simp only [List.append_assoc], h.2.1, ?_⟩
      rintro ⟨hlast, hhead⟩
      cases back with
      | nil => exact hback ⟨hlast, rfl⟩
      | cons d back => exact h.2.2 (List.mem_of_mem_head? (l := d :: back) hhead)
    · exact ⟨a ++ '\n' :: front, back, by simp only [List.append_assoc, List.cons_append], hword,
        hback⟩

/-- A word occurs in a line of a text exactly if it occurs in the text where no line end reaches
    into it. -/
theorem exists_line_iff (hne : word ≠ []) :
    (∃ line ∈ lines t, word <:+: line) ↔ OccursInLine word t := by
  induction t using newline_induction with
  | last t ht =>
      rw [occursInLine_of_not_mem ht]
      cases t with
      | nil => simp [lines, hne]
      | cons c t => simp [lines_of_not_mem ht]
  | next a b ha ih =>
      rw [lines_append_newline ha, List.exists_mem_cons_iff, ih, occursInLine_append_newline ha hne]

instance (word t : Text) : Decidable (OccursInLine word t) :=
  decidable_of_iff (word = [] ∨ (lines t).any (occursIn word) = true) (by
    by_cases hne : word = []
    · subst hne
      exact iff_of_true (.inl rfl) ⟨[], t, rfl, List.not_mem_nil, fun h => nomatch h.1⟩
    · rw [or_iff_right hne, ← exists_line_iff hne, List.any_eq_true]
      simp only [occursIn_iff])

end PagePress.Text
