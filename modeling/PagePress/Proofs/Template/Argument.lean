/-
  PagePress.Proofs.Template.Argument

  Arguments are read as they were written.

  A bare argument is written as it is, a quoted one between single quotation
  marks, and a blank stands between any two.  What is written like this is
  read as the same arguments (`Tag.arguments?_written`), provided that bare
  ones hold neither blanks nor quotation marks and quoted ones no single
  quotation mark.
-/

import Mathlib.Data.List.Basic
import Mathlib.Data.List.TakeWhile
import PagePress.Template.Tag

namespace PagePress.Tag

/-! ## One argument -/

/-- There are no arguments in blank text only. -/
theorem arguments?_eq_nil_iff {t : Text} :
    arguments? t = some [] ↔ ∀ c ∈ t, Text.isBlank c = true := by
  fun_induction arguments? t with
  | case1 => simp
  | case2 c t hc ih => rw [ih, List.forall_mem_cons, and_iff_right hc]
  | case3 c t hc => simp [hc]
  | case4 c t hc => simp [hc]
  | case5 c t hc => simp [hc]
  | case6 c t hc => simp [hc]
  | case7 c t hc => simp [hc]

theorem arguments?_blank {c : Char} (h : Text.isBlank c = true) (t : Text) :
    arguments? (c :: t) = arguments? t := by
  rw [arguments?, if_pos h]

/-- A bare argument runs up to the next blank. -/
theorem arguments?_bare_append {t rest : Text} (hne : t ≠ [])
    (h : ∀ c ∈ t, Text.isBlank c = false ∧ isQuote c = false)
    (hrest : rest.head?.all Text.isBlank = true) :
    arguments? (t ++ rest) = (arguments? rest).map (.bare t :: ·) := by
  obtain ⟨c, cs, rfl⟩ := List.exists_cons_of_ne_nil hne
  have hsolid : ∀ d ∈ cs, isSolid d = true := fun d hd => by
    rw [isSolid, (h d (List.mem_cons_of_mem c hd)).1]
    rfl
  -- what follows starts with a blank, or there is nothing
  have hstop : rest.takeWhile isSolid = [] ∧ rest.dropWhile isSolid = rest := by
    cases rest with
    | nil => exact ⟨rfl, rfl⟩
    | cons d rest =>
        have hblank : ¬ isSolid d = true := by
          rw [isSolid, Bool.not_eq_true', Bool.not_eq_false]
          exact hrest
        exact ⟨List.takeWhile_cons_of_neg hblank, List.dropWhile_cons_of_neg hblank⟩
  have htake : (cs ++ rest).takeWhile isSolid = cs := by
    rw [List.takeWhile_append_of_pos hsolid, hstop.1, List.append_nil]
  have hdrop : (cs ++ rest).dropWhile isSolid = rest := by
    rw [List.dropWhile_append_of_pos hsolid, hstop.2]
  have hquotes : (c :: cs).any isQuote = false := List.any_eq_false.2 fun d hd => by
    rw [(h d hd).2]
    exact Bool.false_ne_true
  obtain ⟨hblank, hquote⟩ := h c List.mem_cons_self
  rw [List.cons_append, arguments?, if_neg (Bool.eq_false_iff.1 hblank),
    if_neg (Bool.eq_false_iff.1 hquote)]
  simp only [htake, hdrop, hquotes, Bool.false_eq_true, if_false]

/-- A quoted argument runs up to the next mark of its kind. -/
theorem arguments?_quoted_append {q : Char} {t rest : Text} (hq : isQuote q = true) (h : q ∉ t)
    (hrest : rest.head?.all Text.isBlank = true) :
    arguments? (q :: (t ++ q :: rest)) = (arguments? rest).map (.quoted t :: ·) := by
  have hinside : ∀ c ∈ t, (c != q) = true := fun c hc =>
    bne_iff_ne.2 fun heq => h (heq ▸ hc)
  have hstop : ¬ (q != q) = true := by
    rw [bne_self_eq_false]
    exact Bool.false_ne_true
  have htake : (t ++ q :: rest).takeWhile (· != q) = t := by
    rw [List.takeWhile_append_of_pos hinside, List.takeWhile_cons_of_neg (p := (· != q)) hstop,
      List.append_nil]
  have hdrop : (t ++ q :: rest).dropWhile (· != q) = q :: rest := by
    rw [List.dropWhile_append_of_pos hinside, List.dropWhile_cons_of_neg (p := (· != q)) hstop]
  have hsolid : ¬ Text.isBlank q = true := by
    rw [isQuote, Bool.or_eq_true, beq_iff_eq, beq_iff_eq] at hq
    obtain rfl | rfl := hq <;> decide
  rw [arguments?, if_neg hsolid, if_pos hq]
  split
  · next hd =>
      rw [hdrop] at hd
      exact absurd hd (List.cons_ne_nil _ _)
  · next hd =>
      rw [hdrop, List.cons.injEq] at hd
      rw [← hd.2, if_pos hrest, htake]

/-! ## Writing -/

/-- An argument as it is written. -/
def Argument.written : Argument → Text
  | .bare t => t
  | .quoted t => '\'' :: (t ++ ['\''])

/-- An argument that can be written. -/
def Argument.Writable : Argument → Prop
  | .bare t => t ≠ [] ∧ ∀ c ∈ t, Text.isBlank c = false ∧ isQuote c = false
  | .quoted t => '\'' ∉ t

/-- Arguments with blanks between them. -/
def written (args : List Argument) : Text := [' '].intercalate (args.map Argument.written)

theorem Argument.Writable.arguments?_append {a : Argument} (h : a.Writable) {rest : Text}
    (hrest : rest.head?.all Text.isBlank = true) :
    arguments? (a.written ++ rest) = (arguments? rest).map (a :: ·) := by
  cases a with
  | bare t => exact arguments?_bare_append h.1 h.2 hrest
  | quoted t =>
      rw [written, List.cons_append, List.append_assoc, List.singleton_append]
      exact arguments?_quoted_append (by decide) h hrest

theorem written_singleton (a : Argument) : written [a] = a.written := List.intercalate_singleton

theorem written_cons (a : Argument) {args : List Argument} (h : args ≠ []) :
    written (a :: args) = a.written ++ ' ' :: written args := by
  obtain ⟨b, args, rfl⟩ := List.exists_cons_of_ne_nil h
  rw [written, List.map_cons, List.map_cons, List.intercalate_cons_cons, ← List.map_cons,
    List.append_assoc]
  rfl

/-- Arguments are read as they were written. -/
theorem arguments?_written {args : List Argument} (h : ∀ a ∈ args, a.Writable) :
    arguments? (written args) = some args := by
  have hnil : arguments? [] = some [] := arguments?_eq_nil_iff.2 (List.forall_mem_nil _)
  have hend : ([] : Text).head?.all Text.isBlank = true := rfl
  induction args with
  | nil => exact hnil
  | cons a args ih =>
      obtain ⟨ha, hargs⟩ := List.forall_mem_cons.1 h
      by_cases hne : args = []
      · subst hne
        have hlast := ha.arguments?_append hend
        rwa [List.append_nil, hnil, ← written_singleton] at hlast
      · rw [written_cons a hne, ha.arguments?_append rfl, arguments?_blank (by decide), ih hargs]
        rfl

/-! ## Ends -/

/-- An argument neither starts nor ends with a blank. -/
theorem Argument.Writable.solid_ends {a : Argument} (h : a.Writable) :
    a.written ≠ [] ∧ (∀ c ∈ a.written.head?, Text.isBlank c = false) ∧
      ∀ c ∈ a.written.getLast?, Text.isBlank c = false := by
  cases a with
  | bare t =>
      exact ⟨h.1, fun c hc => (h.2 c (List.mem_of_mem_head? hc)).1,
        fun c hc => (h.2 c (List.mem_of_mem_getLast? hc)).1⟩
  | quoted t =>
      have hmark : Text.isBlank '\'' = false := by decide
      refine ⟨List.cons_ne_nil _ _, fun c hc => ?_, fun c hc => ?_⟩
      · rwa [← Option.some.inj hc]
      · rw [written, ← List.cons_append, List.getLast?_concat] at hc
        rwa [← Option.some.inj hc]

theorem written_solid_ends {args : List Argument} (hne : args ≠ []) (h : ∀ a ∈ args, a.Writable) :
    written args ≠ [] ∧ (∀ c ∈ (written args).head?, Text.isBlank c = false) ∧
      ∀ c ∈ (written args).getLast?, Text.isBlank c = false := by
  induction args with
  | nil => exact absurd rfl hne
  | cons a args ih =>
      obtain ⟨ha, hargs⟩ := List.forall_mem_cons.1 h
      obtain ⟨hfirst, hhead, hlast⟩ := ha.solid_ends
      by_cases hempty : args = []
      · rw [hempty, written_singleton]
        exact ⟨hfirst, hhead, hlast⟩
      · obtain ⟨hrest, -, hlast'⟩ := ih hempty hargs
        rw [written_cons a hempty]
        refine ⟨List.append_ne_nil_of_left_ne_nil hfirst _, ?_, ?_⟩
        · -- the first argument stands at the start
          rwa [List.head?_append_of_ne_nil _ hfirst]
        · -- the others stand at the end, behind a blank
          rwa [List.getLast?_append_of_ne_nil _ (List.cons_ne_nil _ _),
            List.getLast?_cons_of_ne_nil hrest]

end PagePress.Tag
