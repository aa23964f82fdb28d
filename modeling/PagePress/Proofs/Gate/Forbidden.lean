/-
  PagePress.Proofs.Gate.Forbidden

  What is reported about forbidden words.

  The reports are, in the order of the rule set, one for each word that occurs in a
  line of the page, with the first such line (`Gate.reports_checkWords`).

  Line ends are not searched.  A word with a newline in it occurs in no line,
  wherever it stands in the page (`RuleSet.exists_word_missed`).
-/

import Mathlib.Data.List.Forall2
import PagePress.Proofs.Gate.Code
import PagePress.Proofs.Text.Lines

namespace PagePress

open Text (OccursInLine occursIn_iff)

namespace Gate

/-! ## First lines with a word -/

section

variable {word line : Text} {ls : List Text} {number : Nat}

theorem lineWith?_eq_none_iff (hne : word ≠ []) :
    lineWith? word ls = none ↔ ∀ line ∈ ls, ¬ word <:+: line := by
  have hlines : (∀ line ∈ ls, ¬ word <:+: line) ↔ ∀ x ∈ ls.zipIdx 1, ¬ word <:+: x.1 := by
    conv_lhs => rw [← List.zipIdx_map_fst 1 ls]
    exact List.forall_mem_map
  rw [lineWith?, if_neg (List.isEmpty_iff.not.2 hne), List.find?_eq_none, hlines]
  simp only [occursIn_iff]

/-- The line that is found is the first one in which the word occurs, counted from one. -/
theorem exists_of_lineWith? (h : lineWith? word ls = some (line, number)) :
    ∃ front back, ls = front ++ line :: back ∧ number = front.length + 1 ∧ word <:+: line ∧
      ∀ other ∈ front, ¬ word <:+: other := by
  unfold lineWith? at h
  split at h
  · exact absurd h.symm (Option.some_ne_none _)
  · obtain ⟨hword, before, behind, heq, hbefore⟩ := List.find?_eq_some_iff_append.1 h
    obtain ⟨front, rest, rfl, rfl, hrest⟩ := List.zipIdx_eq_append_iff.1 heq
    obtain ⟨first, back, rfl, hfirst, -⟩ := List.zipIdx_eq_cons_iff.1 hrest.symm
    obtain ⟨rfl, rfl⟩ := Prod.mk.inj hfirst
    refine ⟨front, back, rfl, Nat.add_comm _ _, occursIn_iff.1 hword, fun other hother => ?_⟩
    rw [← List.zipIdx_map_fst 1 front] at hother
    obtain ⟨x, hx, rfl⟩ := List.mem_map.1 hother
    have hmissed := hbefore x hx
    rw [Bool.not_eq_true'] at hmissed
    exact fun hinfix => Bool.eq_false_iff.1 hmissed (occursIn_iff.2 hinfix)

end

/-! ## Reports -/

/-- A diagnostic reports a word with the first line of a page in which the word occurs. -/
def Reports (content word : Text) (d : Diagnostic) : Prop :=
  ∃ front line back, Text.lines content = front ++ line :: back ∧ word <:+: line ∧
    (∀ other ∈ front, ¬ word <:+: other) ∧
      d = (Finding.forbiddenWord word (front.length + 1) line).toDiagnostic

/-- The words that occur in a line of a page, in order. -/
def wordsInLines (forbidden : List Text) (content : Text) : List Text :=
  forbidden.filter fun word => decide (word ≠ [] ∧ OccursInLine word content)

/-- The check reports the words that occur in a line, each once for each time that it is
    forbidden. -/
theorem reports_checkWords (forbidden : List Text) (content : Text) :
    List.Forall₂ (Reports content) (wordsInLines forbidden content)
      ((checkWords forbidden content).map Finding.toDiagnostic) := by
  induction forbidden with
  | nil => exact .nil
  | cons word forbidden ih =>
      rw [wordsInLines, List.filter_cons, checkWords, List.filterMap_cons]
      cases hfound : lineWith? word (Text.lines content) with
      | none =>
          have hmissed : ¬ (word ≠ [] ∧ OccursInLine word content) := by
            rintro ⟨hne, hoccurs⟩
            obtain ⟨line, hline, hinfix⟩ := (Text.exists_line_iff hne).2 hoccurs
            exact (lineWith?_eq_none_iff hne).1 hfound line hline hinfix
          rw [if_neg (by rw [decide_eq_true_iff]; exact hmissed)]
          exact ih
      | some found =>
          obtain ⟨line, number⟩ := found
          obtain ⟨front, back, hlines, rfl, hinfix, hfirst⟩ := exists_of_lineWith? hfound
          have hne : word ≠ [] := by
            rintro rfl
            exact absurd hfound.symm (Option.some_ne_none _)
          have hmem : line ∈ Text.lines content := by
            rw [hlines]
            exact List.mem_append_right front List.mem_cons_self
          have hoccurs := (Text.exists_line_iff hne).1 ⟨line, hmem, hinfix⟩
          rw [if_pos (decide_eq_true ⟨hne, hoccurs⟩)]
          exact .cons ⟨front, line, back, hlines, hinfix, hfirst, rfl⟩ ih

end Gate

/-! ## Verdicts -/

/-- On a page of a known type the errors about forbidden words are, in the order of the rule set,
    one for each word that is not empty and occurs in the page where no line end reaches into it,
    and each cites the first line with the word.  A word without a newline in it, and without a
    carriage return at its end, occurs like this wherever it stands in the page, and a word that
    does not stand in the page never does. -/
theorem RuleSet.judge_forbidden (r : RuleSet) {type : Text} {t : TypeRules}
    (ht : r.typeRules? type = some t) (content : Text) (c : Context) (now : Instant) :
    List.Forall₂ (Gate.Reports content) (Gate.wordsInLines r.forbidden content)
        ((r.judge content type c now).errorsWith Gate.wordCode) ∧
      (∀ word, '\n' ∉ word → word.getLast? ≠ some '\r' →
        (OccursInLine word content ↔ word <:+: content)) ∧
      ∀ word, OccursInLine word content → word <:+: content := by
  refine ⟨?_, fun word => Text.occursInLine_iff_isInfix, fun word => OccursInLine.isInfix⟩
  rw [judge_known ht, Verdict.errorsWith_word]
  exact Gate.reports_checkWords r.forbidden content

/-- A word that is forbidden twice, one that would need the carriage return of a line end, and an
    empty one. -/
theorem RuleSet.judge_forbidden_twice :
    let r : RuleSet := { types := [(['x'], {})], forbidden := [['a', '\r'], ['b'], [], ['b']] }
    let content : Text := "a\r\nb"
    r.typeRules? ['x'] = some {} ∧
      List.Forall₂ (Gate.Reports content) [['b'], ['b']]
        ((r.judge content ['x'] .empty ⟨0, 0⟩).errorsWith Gate.wordCode) := by
  intro r content
  have ht : r.typeRules? ['x'] = some {} := rfl
  have hwords : Gate.wordsInLines r.forbidden content = [['b'], ['b']] := by decide
  exact ⟨ht, hwords ▸ (r.judge_forbidden ht content .empty ⟨0, 0⟩).1⟩

/-- A forbidden word with a newline in it stands in a page, and no error reports it. -/
theorem RuleSet.exists_word_missed :
    let r : RuleSet := { types := [(['x'], {})], forbidden := ["a\nb"] }
    let content : Text := "a\nb"
    r.fault? = none ∧ r.typeRules? ['x'] = some {} ∧
      (∃ word ∈ r.forbidden, word ≠ [] ∧ word <:+: content) ∧
        (r.judge content ['x'] .empty ⟨0, 0⟩).errorsWith Gate.wordCode = [] := by
  intro r content
  have hfault : r.fault? = none := by decide
  have ht : r.typeRules? ['x'] = some {} := rfl
  refine ⟨hfault, ht, ⟨content, List.mem_singleton.2 rfl, List.cons_ne_nil _ _,
    List.infix_rfl⟩, ?_⟩
  rw [judge_known ht, Verdict.errorsWith_word]
  rfl

end PagePress
