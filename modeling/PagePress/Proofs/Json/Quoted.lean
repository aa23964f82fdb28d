/-
  PagePress.Proofs.Json.Quoted

  Reading back a written string.

  A character is written as it is or as an escape (`Written`), and each
  escape is read as the character that it was written for.  So a quoted text
  is read as that text, whatever follows its closing quotation mark
  (`stringBody?_escape`).
-/

import Mathlib.Tactic.SplitIfs
import PagePress.Json.Lexeme
import PagePress.Json.Writer

namespace PagePress.Json

open Text (hexDigit)

/-! ## Written characters -/

/-- A character that is written as it is. -/
def isPlain (c : Char) : Bool := c != '"' && c != '\\' && decide (0x20 ≤ c.toNat)

theorem isPlain_iff {c : Char} : isPlain c = true ↔ c ≠ '"' ∧ c ≠ '\\' ∧ 0x20 ≤ c.toNat := by
  simp only [isPlain, Bool.and_eq_true, bne_iff_ne, decide_eq_true_eq, and_assoc]

/-- The ways in which a character is written. -/
inductive Written (c : Char) : Text → Prop where
  | plain (h : isPlain c = true) : Written c [c]
  | short {e : Char} (h : shortEscape? e = some c) : Written c ['\\', e]
  | unicode (h : c.toNat < 0x20) :
      Written c ['\\', 'u', '0', '0', hexDigit (c.toNat / 16), hexDigit (c.toNat % 16)]

theorem written_escapeChar (c : Char) : Written c (escapeChar c) := by
  unfold escapeChar
  split_ifs with hq hb h8 ht hn hf hr hc
  any_goals
    subst c
    exact .short (by decide)
  · exact .unicode hc
  · exact .plain (isPlain_iff.2 ⟨hq, hb, Nat.le_of_not_lt hc⟩)

theorem escapeChar_plain {c : Char} (h : isPlain c = true) : escapeChar c = [c] := by
  obtain ⟨hq, hb, hc⟩ := isPlain_iff.1 h
  have hlow : ∀ d : Char, d.toNat < 0x20 → c ≠ d := by
    rintro d hd rfl
    omega
  rw [escapeChar, if_neg hq, if_neg hb, if_neg (hlow _ (by decide)), if_neg (hlow _ (by decide)),
    if_neg (hlow _ (by decide)), if_neg (hlow _ (by decide)), if_neg (hlow _ (by decide)),
    if_neg (Nat.not_lt.2 hc)]

@[simp] theorem escape_nil : escape [] = [] := rfl

@[simp] theorem escape_cons (c : Char) (t : Text) : escape (c :: t) = escapeChar c ++ escape t := by
  rw [escape, List.flatMap_cons, escape]

theorem escape_append (s t : Text) : escape (s ++ t) = escape s ++ escape t := by
  rw [escape, escape, escape, List.flatMap_append]

theorem escape_plain {t : Text} (h : ∀ c ∈ t, isPlain c = true) : escape t = t := by
  induction t with
  | nil => rfl
  | cons c t ih =>
      rw [escape_cons, escapeChar_plain (h c List.mem_cons_self),
        ih fun d hd => h d (List.mem_cons_of_mem c hd)]
      rfl

/-! ## Reading one character -/

theorem hex4?_hexDigit : ∀ n < 0x20,
    hex4? '0' '0' (hexDigit (n / 16)) (hexDigit (n % 16)) = some n := by
  decide

theorem stringBody?_plain {c : Char} (h : isPlain c = true) (t : Text) :
    stringBody? (c :: t) = prependChar c (stringBody? t) := by
  obtain ⟨hq, hb, hc⟩ := isPlain_iff.1 h
  rw [stringBody?.eq_6 c t hq (fun _ _ _ _ _ _ _ _ _ he => absurd he hb)
    (fun _ _ _ _ _ he => absurd he hb) (fun _ _ he => absurd he hb), if_neg]
  rintro (he | he)
  · exact hb he
  · omega

theorem shortEscape?_u : shortEscape? 'u' = none := by decide

theorem stringBody?_short {e c : Char} (h : shortEscape? e = some c) (t : Text) :
    stringBody? ('\\' :: e :: t) = prependChar c (stringBody? t) := by
  have hu : e ≠ 'u' := by
    rintro rfl
    rw [shortEscape?_u] at h
    cases h
  rw [stringBody?.eq_5 e t (fun _ _ _ _ _ _ _ _ _ he => absurd he hu)
    (fun _ _ _ _ _ he => absurd he hu), h]

/-- A four-digit escape below the surrogates is read on its own, provided that what looks like a
    further one behind it is one. -/
theorem stringBody?_unicode {a b c d : Char} {n : Nat} (h : hex4? a b c d = some n)
    (hn : n < 0xD800) {t : Text}
    (ht : ∀ e f g h cs, t = '\\' :: 'u' :: e :: f :: g :: h :: cs → ∃ m, hex4? e f g h = some m) :
    stringBody? ('\\' :: 'u' :: a :: b :: c :: d :: t) =
      prependChar (Char.ofNat n) (stringBody? t) := by
  -- a further escape is looked at only to tell a pair of surrogates
  by_cases hnext : ∃ e f g h cs, t = '\\' :: 'u' :: e :: f :: g :: h :: cs
  · obtain ⟨e, f, g, i, cs, rfl⟩ := hnext
    obtain ⟨m, hm⟩ := ht e f g i cs rfl
    rw [stringBody?.eq_3, h, hm]
    simp only
    rw [if_neg (by omega), if_neg (by omega)]
  · rw [stringBody?.eq_4 a b c d t fun e f g i cs he => hnext ⟨e, f, g, i, cs, he⟩, h]
    simp only
    rw [if_neg (by omega)]

/-! ## Reading a string -/

/-- What looks like a four-digit escape in written text is one. -/
theorem hex4?_of_escape {s rest cs : Text} {e f g h : Char}
    (heq : escape s ++ '"' :: rest = '\\' :: 'u' :: e :: f :: g :: h :: cs) :
    ∃ m, hex4? e f g h = some m := by
  cases s with
  | nil => exact absurd (List.cons.inj heq).1 (by decide)
  | cons c s =>
      rw [escape_cons, List.append_assoc] at heq
      have hc := written_escapeChar c
      generalize escapeChar c = w at heq hc
      cases hc with
      | plain hp =>
          have hb := (isPlain_iff.1 hp).2.1
          exact absurd (List.cons.inj heq).1 hb
      | short hs =>
          simp only [List.cons_append, List.cons.injEq] at heq
          rw [heq.2.1, shortEscape?_u] at hs
          cases hs
      | unicode hlow =>
          simp only [List.cons_append, List.cons.injEq, List.nil_append] at heq
          obtain ⟨-, -, rfl, rfl, rfl, rfl, -⟩ := heq
          exact ⟨c.toNat, hex4?_hexDigit _ hlow⟩

/-- A written string is read as the text that it was written for. -/
theorem stringBody?_escape (s rest : Text) :
    stringBody? (escape s ++ '"' :: rest) = some (s, rest) := by
  -- one character at a time, however it is written
  induction s with
  | nil => exact stringBody?.eq_2 rest
  | cons c s ih =>
      rw [escape_cons, List.append_assoc]
      have hc := written_escapeChar c
      generalize escapeChar c = w at hc
      cases hc with
      | plain hp =>
          rw [List.cons_append, List.nil_append, stringBody?_plain hp, ih]
          rfl
      | short hs =>
          simp only [List.cons_append, List.nil_append]
          rw [stringBody?_short hs, ih]
          rfl
      | unicode hlow =>
          simp only [List.cons_append, List.nil_append]
          rw [stringBody?_unicode (hex4?_hexDigit _ hlow) (by omega)
            (fun e f g h cs heq => hex4?_of_escape heq), ih, Char.ofNat_toNat]
          rfl

end PagePress.Json
