/-
  PagePress.Proofs.Json.Escape

  What escaping leaves of a text.

  Between quotation marks the escaped text is a document, and it reads as the
  text that was escaped.  There are no control characters in it, and none of
  its quotation marks could end a string: an odd number of backslashes stands
  in front of it, the last of which escapes the mark
  (`Json.read?_escaped`).
-/

import Mathlib.Algebra.Ring.Parity
import Mathlib.Data.List.Induction
import PagePress.Proofs.Json.Document

namespace PagePress.Json

open Text (hexDigit)

/-! ## Written characters -/

theorem hexDigit_printable : ∀ n < 16,
    0x20 ≤ (hexDigit n).toNat ∧ hexDigit n ≠ '"' ∧ hexDigit n ≠ '\\' := by
  decide

theorem printable_of_shortEscape? {e c : Char} (h : shortEscape? e = some c) : 0x20 ≤ e.toNat := by
  unfold shortEscape? at h
  split_ifs at h with hself hb hf hn hr ht
  · rcases hself with rfl | rfl | rfl <;> decide
  all_goals
    subst e
    decide

namespace Written

variable {c : Char} {w : Text}

/-- What is written for a character has no control character. -/
theorem printable (h : Written c w) : ∀ d ∈ w, 0x20 ≤ d.toNat := by
  cases h with
  | plain hp => exact List.forall_mem_singleton.2 (isPlain_iff.1 hp).2.2
  | short he =>
      exact List.forall_mem_cons.2
        ⟨by decide, List.forall_mem_singleton.2 (printable_of_shortEscape? he)⟩
  | unicode hlow =>
      have hfirst := hexDigit_printable (c.toNat / 16) (by omega)
      have hlast := hexDigit_printable (c.toNat % 16) (by omega)
      simp only [List.forall_mem_cons]
      exact ⟨by decide, by decide, by decide, by decide, hfirst.1, hlast.1, List.forall_mem_nil _⟩

/-- A quotation mark is written only behind a backslash. -/
theorem front_eq {front back : Text} (h : Written c w) (hw : w = front ++ '"' :: back) :
    front = ['\\'] := by
  have hmark : '"' ∈ w := by
    rw [hw]
    exact List.mem_append_right front List.mem_cons_self
  cases h with
  | plain hp => exact absurd (List.mem_singleton.1 hmark).symm (isPlain_iff.1 hp).1
  | short he =>
      -- the mark is not the backslash, so it is what stands behind it
      rcases front with _ | ⟨d, _ | ⟨e, front⟩⟩
      · exact absurd (List.cons.inj hw).1 (by decide)
      · rw [(List.cons.inj hw).1]
      · exact absurd (congrArg List.length hw) (by simp)
  | unicode hlow =>
      have hfirst := (hexDigit_printable (c.toNat / 16) (by omega)).2.1
      have hlast := (hexDigit_printable (c.toNat % 16) (by omega)).2.1
      simp [hfirst.symm, hlast.symm] at hmark

end Written

/-! ## Runs of backslashes -/

/-- The number of backslashes that a text ends with. -/
def backslashRun (t : Text) : Nat := (t.reverse.takeWhile (· == '\\')).length

theorem backslashRun_concat_backslash (t : Text) :
    backslashRun (t ++ ['\\']) = backslashRun t + 1 := by
  rw [backslashRun, List.reverse_concat, List.takeWhile_cons_of_pos (by decide), List.length_cons,
    backslashRun]

theorem backslashRun_concat {d : Char} (h : d ≠ '\\') (t : Text) :
    backslashRun (t ++ [d]) = 0 := by
  rw [backslashRun, List.reverse_concat, List.takeWhile_cons_of_neg (by simpa using h),
    List.length_nil]

/-- What is written for a character leaves the backslashes at the end even in number. -/
theorem Written.even_backslashRun {c : Char} {w t : Text} (h : Written c w)
    (ht : Even (backslashRun t)) : Even (backslashRun (t ++ w)) := by
  cases h with
  | plain hp =>
      rw [backslashRun_concat (isPlain_iff.1 hp).2.1]
      exact Even.zero
  | @short e he =>
      rw [← List.singleton_append, ← List.append_assoc]
      by_cases hback : e = '\\'
      · rw [hback, backslashRun_concat_backslash, backslashRun_concat_backslash]
        exact ht.add even_two
      · rw [backslashRun_concat hback]
        exact Even.zero
  | unicode hlow =>
      have hlast := (hexDigit_printable (c.toNat % 16) (by omega)).2.2
      have hsplit (a b d e f g : Char) : t ++ [a, b, d, e, f, g] = t ++ [a, b, d, e, f] ++ [g] := by
        simp
      rw [hsplit, backslashRun_concat hlast]
      exact Even.zero

theorem even_backslashRun_escape (s : Text) : Even (backslashRun (escape s)) := by
  -- on the text from its end, since the run stands there
  induction s using List.reverseRecOn with
  | nil => exact Even.zero
  | append_singleton s c ih =>
      rw [escape_append, escape_cons, escape_nil, List.append_nil]
      exact (written_escapeChar c).even_backslashRun ih

/-! ## Quotation marks -/

/-- In front of a quotation mark stands the escaped start of the text, and a backslash. -/
theorem exists_front_eq {s front back : Text} (h : escape s = front ++ '"' :: back) :
    ∃ start, front = escape start ++ ['\\'] := by
  induction s generalizing front with
  | nil => exact absurd h.symm (List.append_ne_nil_of_right_ne_nil front (List.cons_ne_nil _ _))
  | cons c s ih =>
      rw [escape_cons] at h
      rcases List.append_eq_append_iff.1 h with ⟨rest, rfl, hrest⟩ | ⟨rest, hw, hrest⟩
      · -- the mark is in the written form of a later character
        obtain ⟨start, rfl⟩ := ih hrest
        exact ⟨c :: start, by rw [escape_cons, List.append_assoc]⟩
      · cases rest with
        | nil =>
            -- the later ones start with the mark, but nothing escapes it there
            have hstarts : escape s = [] ++ '"' :: back := hrest.symm
            obtain ⟨start, hstart⟩ := ih hstarts
            exact absurd hstart.symm (List.append_ne_nil_of_right_ne_nil _ (List.cons_ne_nil _ _))
        | cons d rest =>
            obtain ⟨rfl, -⟩ := List.cons.inj hrest
            exact ⟨[], (written_escapeChar c).front_eq hw⟩

/-! ## Escaped text -/

/-- An escaped text between quotation marks reads as the text.  Texts are escaped piece by piece,
    no control character is left, and an odd number of backslashes stands before every quotation
    mark. -/
theorem read?_escaped (s : Text) :
    read? ('"' :: (escape s ++ ['"'])) = some (.string s) ∧
      (∀ t, escape (s ++ t) = escape s ++ escape t) ∧
      (∀ c ∈ escape s, 0x20 ≤ c.toNat) ∧
      ∀ front back, escape s = front ++ '"' :: back → Odd (backslashRun front) := by
  refine ⟨?_, escape_append s, ?_, ?_⟩
  · have hparse : parseWithin? nestingLimit (Json.string s).write = some (.string s) :=
      parseWithin?_write rfl (Nat.zero_le _)
    show read? (Json.string s).write = _
    rw [read?, hparse]
    rfl
  · intro c hc
    obtain ⟨d, -, hd⟩ := List.mem_flatMap.1 hc
    exact (written_escapeChar d).printable c hd
  · intro front back hfront
    obtain ⟨start, rfl⟩ := exists_front_eq hfront
    rw [backslashRun_concat_backslash]
    exact (even_backslashRun_escape start).add_one

end PagePress.Json
