/-
  PagePress.Proofs.Structured.Object

  The written form of an object of texts, seen from inside one of its texts.

  What is left from there on is the rest of the text and the members after it
  (`Rest`).  A brace in the written form is a brace of one of the texts, so a
  cut at a brace leaves such a rest (`Rest.reads_of_brace`), and what was
  read before the cut makes an object with any other rest (`Reads.rebuild`).
-/

import PagePress.Proofs.Cleanup.Normal
import PagePress.Proofs.Json.Fields

namespace PagePress

open Text (isBlank isInlineBlank)
open Cleanup (isBrace)
open Json (isPlain escape escapeChar quote ofFields)

/-! ## Names of fields -/

/-- A lower-case letter of ASCII. -/
def Text.isLower (c : Char) : Bool := 'a' ≤ c && c ≤ 'z'

/-- A name that a field of a template can have: lower-case letters, and not the word that divides
    a conditional. -/
structure IsFieldName (k : Text) : Prop where
  nonempty : k ≠ []
  lower : ∀ c ∈ k, Text.isLower c = true
  ne_else : k ≠ "else".toList

instance (k : Text) : Decidable (IsFieldName k) :=
  decidable_of_iff (k ≠ [] ∧ k.all Text.isLower = true ∧ k ≠ "else".toList)
    ⟨fun h => ⟨h.1, List.all_eq_true.1 h.2.1, h.2.2⟩,
      fun h => ⟨h.nonempty, List.all_eq_true.2 h.lower, h.ne_else⟩⟩

/-- Text without braces and blanks. -/
def Quiet (t : Text) : Prop := ∀ c ∈ t, isBrace c = false ∧ isBlank c = false

instance (t : Text) : Decidable (Quiet t) :=
  decidable_of_iff ((t.all fun c => !isBrace c && !isBlank c) = true) (by
    simp only [Quiet, List.all_eq_true, Bool.and_eq_true, Bool.not_eq_true'])

/-- What holds of the letters from `a` to `z` holds of every lower-case letter. -/
theorem Text.isLower_induction {P : Char → Prop} (h : ∀ i : Fin 26, P (Char.ofNat (97 + i)))
    {c : Char} (hc : isLower c = true) : P c := by
  rw [isLower, Bool.and_eq_true, decide_eq_true_eq, decide_eq_true_eq] at hc
  have hlow : 97 ≤ c.toNat := hc.1
  have hhigh : c.toNat ≤ 122 := hc.2
  -- the letter is the one with its distance from `a`
  have hp := h ⟨c.toNat - 97, by omega⟩
  have heq : 97 + (c.toNat - 97) = c.toNat := by omega
  simp only [heq, Char.ofNat_toNat] at hp
  exact hp

theorem Text.isLower_solid {c : Char} (hc : isLower c = true) :
    isBrace c = false ∧ isBlank c = false ∧ isPlain c = true :=
  isLower_induction (P := fun c => isBrace c = false ∧ isBlank c = false ∧ isPlain c = true)
    (by decide) hc

/-- A character that is escaped is written without braces and blanks. -/
theorem quiet_escapeChar {c : Char} (h : isPlain c = false) : Quiet (escapeChar c) := by
  have hcases : c = '"' ∨ c = '\\' ∨ c.toNat < 0x20 := by
    by_contra hne
    rw [not_or, not_or, Nat.not_lt] at hne
    rw [Json.isPlain_iff.2 hne] at h
    exact Bool.noConfusion h
  rcases hcases with rfl | rfl | hlow
  · decide
  · decide
  · have hall : ∀ n < 0x20, Quiet (escapeChar (Char.ofNat n)) := by decide
    have hq := hall c.toNat hlow
    rw [Char.ofNat_toNat] at hq
    exact hq

/-! ## The written form -/

namespace Json

/-- What precedes the text of a member: its name, quoted, and the opening mark of the text. -/
def label (k : Text) : Text := quote k ++ [':', '"']

/-- What follows the text of a member: its closing mark, and the further members. -/
def afterText : List (Text × Text) → Text
  | [] => ['"', '}']
  | (k, v) :: fs => '"' :: ',' :: (label k ++ (escape v ++ afterText fs))

theorem write_ofFields (k v : Text) (fs : List (Text × Text)) :
    (ofFields ((k, v) :: fs)).write = '{' :: (label k ++ (escape v ++ afterText fs)) := by
  -- for every first member, since each further one comes first in turn
  have hmembers : ∀ k v : Text,
      writeMembers (((k, v) :: fs).map fun f => (f.1, .string f.2)) ++ ['}'] =
        label k ++ (escape v ++ afterText fs) := by
    induction fs with
    | nil =>
        intro k v
        simp only [List.map_cons, List.map_nil, writeMembers, write, quote, label, afterText,
          List.append_assoc, List.cons_append, List.nil_append]
    | cons f fs ih =>
        intro k v
        have hrest := ih f.1 f.2
        rw [List.map_cons] at hrest
        rw [List.map_cons, List.map_cons, writeMembers_cons_cons, write, quote, afterText, ← hrest]
        simp only [label, quote, List.append_assoc, List.cons_append, List.nil_append]
  rw [ofFields, write, hmembers]

end Json

open Json (label afterText)

theorem IsFieldName.quiet_label {k : Text} (h : IsFieldName k) : Quiet (label k) := by
  have hk : escape k = k := Json.escape_plain fun c hc => (Text.isLower_solid (h.lower c hc)).2.2
  have hmark : Quiet [':', '"'] := by decide
  intro c hc
  rw [label, quote, hk, List.cons_append, List.append_assoc, List.mem_cons, List.mem_append] at hc
  rcases hc with rfl | hc | hc
  · decide
  · exact ⟨(Text.isLower_solid (h.lower c hc)).1, (Text.isLower_solid (h.lower c hc)).2.1⟩
  · rcases List.mem_cons.1 hc with rfl | hc
    · decide
    · exact hmark c hc

/-- What precedes the text of a further member has no braces and no blanks. -/
theorem IsFieldName.quiet_separator {k : Text} (h : IsFieldName k) :
    Quiet ('"' :: ',' :: label k) := by
  intro c hc
  rcases List.mem_cons.1 hc with rfl | hc
  · decide
  · rcases List.mem_cons.1 hc with rfl | hc
    · decide
    · exact h.quiet_label c hc

/-- How many characters the texts of some fields have together. -/
def textSize : List (Text × Text) → Nat
  | [] => 0
  | f :: fs => f.2.length + textSize fs

theorem textSize_cons (f : Text × Text) (fs : List (Text × Text)) :
    textSize (f :: fs) = f.2.length + textSize fs := rfl

/-- What is left of an object of texts from inside one of them on. -/
structure Rest where
  /-- The rest of the text. -/
  text : Text
  /-- The members after it. -/
  fields : List (Text × Text)

namespace Rest

/-- The written form of the rest. -/
def write (r : Rest) : Text := escape r.text ++ afterText r.fields

/-- The names of the members after the text. -/
def keys (r : Rest) : List Text := r.fields.map Prod.fst

/-- How many characters the texts have together. -/
def size (r : Rest) : Nat := r.text.length + textSize r.fields

/-- What holds of the end of an object, and is kept by a character in front of the text and by a
    member in front of the text, holds of every rest. -/
@[induction_eliminator]
theorem induction {P : Rest → Prop} (last : P ⟨[], []⟩)
    (next : ∀ k v fs, P ⟨v, fs⟩ → P ⟨[], (k, v) :: fs⟩)
    (char : ∀ c v fs, P ⟨v, fs⟩ → P ⟨c :: v, fs⟩) (r : Rest) : P r := by
  obtain ⟨v, fs⟩ := r
  -- the text is built up in front of the members, and the members one by one
  have htext : ∀ fs, P ⟨[], fs⟩ → ∀ v, P ⟨v, fs⟩ := by
    intro fs hnil v
    induction v with
    | nil => exact hnil
    | cons c v ih => exact char c v fs ih
  induction fs generalizing v with
  | nil => exact htext [] last v
  | cons f fs ih => exact htext _ (next f.1 f.2 fs (ih f.2)) v

/-- A rest is the end of the object, or starts with a member or with a character of its text. -/
@[cases_eliminator]
theorem cases {P : Rest → Prop} (last : P ⟨[], []⟩) (next : ∀ k v fs, P ⟨[], (k, v) :: fs⟩)
    (char : ∀ c v fs, P ⟨c :: v, fs⟩) (r : Rest) : P r := by
  obtain ⟨v, fs⟩ := r
  cases v with
  | cons c v => exact char c v fs
  | nil =>
      cases fs with
      | nil => exact last
      | cons f fs => exact next f.1 f.2 fs

/-- The members after the text have names of fields. -/
def Named (r : Rest) : Prop := ∀ k ∈ r.keys, IsFieldName k

theorem write_cons (c : Char) (v : Text) (fs : List (Text × Text)) :
    write ⟨c :: v, fs⟩ = escapeChar c ++ write ⟨v, fs⟩ := by
  rw [write, write, Json.escape_cons, List.append_assoc]

theorem write_nil : write ⟨[], []⟩ = ['"', '}'] := rfl

theorem write_next (k v : Text) (fs : List (Text × Text)) :
    write ⟨[], (k, v) :: fs⟩ = '"' :: ',' :: (label k ++ write ⟨v, fs⟩) := rfl

/-- The rest of an object ends with the closing mark of its last text. -/
theorem write_ends (r : Rest) : ∃ t, r.write = t ++ ['"', '}'] := by
  induction r with
  | last => exact ⟨[], rfl⟩
  | next k v fs ih =>
      obtain ⟨t, ht⟩ := ih
      refine ⟨'"' :: ',' :: (label k ++ t), ?_⟩
      rw [write_next, ht]
      simp only [List.append_assoc, List.cons_append]
  | char c v fs ih =>
      obtain ⟨t, ht⟩ := ih
      refine ⟨escapeChar c ++ t, ?_⟩
      rw [write_cons, ht, List.append_assoc]

end Rest

/-- Reading a text leads from one rest of an object to a later one. -/
inductive Reads : Text → Rest → Rest → Prop where
  | refl (r : Rest) : Reads [] r r
  | char (c : Char) {x v : Text} {fs : List (Text × Text)} {r : Rest} (h : Reads x ⟨v, fs⟩ r) :
      Reads (escapeChar c ++ x) ⟨c :: v, fs⟩ r
  | next (k : Text) {x v : Text} {fs : List (Text × Text)} {r : Rest} (h : Reads x ⟨v, fs⟩ r) :
      Reads ('"' :: ',' :: (label k ++ x)) ⟨[], (k, v) :: fs⟩ r

namespace Reads

theorem keys_sublist {x : Text} {r r' : Rest} (h : Reads x r r') : r'.keys.Sublist r.keys := by
  induction h with
  | refl r => exact .refl _
  | char _ _ ih => exact ih
  | next k _ ih => exact ih.cons k

theorem size_le {x : Text} {r r' : Rest} (h : Reads x r r') : r'.size ≤ r.size := by
  induction h with
  | refl r => exact Nat.le_refl _
  | char c _ ih =>
      simp only [Rest.size, List.length_cons] at ih ⊢
      omega
  | next k _ ih =>
      simp only [Rest.size, List.length_nil, textSize_cons] at ih ⊢
      omega

/-- What was read makes an object with any other rest. -/
theorem rebuild {x : Text} {r r' : Rest} (h : Reads x r r') (q : Rest)
    (hq : q.keys.Sublist r'.keys) :
    ∃ p : Rest, p.write = x ++ q.write ∧ p.keys.Sublist r.keys ∧
      p.size + r'.size = r.size + q.size := by
  induction h with
  | refl r => exact ⟨q, rfl, hq, Nat.add_comm _ _⟩
  | char c _ ih =>
      obtain ⟨⟨v, fs⟩, hw, hk, hs⟩ := ih hq
      refine ⟨⟨c :: v, fs⟩, ?_, hk, ?_⟩
      · rw [Rest.write_cons, hw, List.append_assoc]
      · simp only [Rest.size, List.length_cons] at hs ⊢
        omega
  | next k _ ih =>
      obtain ⟨⟨v, fs⟩, hw, hk, hs⟩ := ih hq
      refine ⟨⟨[], (k, v) :: fs⟩, ?_, hk.cons_cons k, ?_⟩
      · rw [Rest.write_next, hw]
        simp only [List.cons_append, List.append_assoc]
      · simp only [Rest.size, List.length_nil, textSize_cons] at hs ⊢
        omega

end Reads

/-! ## Cuts at braces -/

/-- A cut at a character that does not occur in the first part lies in the second part. -/
theorem exists_of_append_eq_append_cons {α : Type} {p t x y : List α} {b : α} (hp : b ∉ p)
    (h : p ++ t = x ++ b :: y) : ∃ x', x = p ++ x' ∧ t = x' ++ b :: y := by
  rcases List.append_eq_append_iff.1 h with ⟨x', hx, ht⟩ | ⟨q, hq, hb⟩
  · exact ⟨x', hx, ht⟩
  · cases q with
    | nil =>
        rw [List.append_nil] at hq
        exact ⟨[], by rw [hq, List.append_nil], hb.symm⟩
    | cons c q =>
        obtain ⟨rfl, -⟩ := List.cons.inj hb
        exact absurd (by rw [hq]; exact List.mem_append_right x List.mem_cons_self) hp

theorem Quiet.not_mem {p : Text} (h : Quiet p) {b : Char} (hb : isBrace b = true) : b ∉ p := by
  intro hmem
  rw [(h b hmem).1] at hb
  exact Bool.noConfusion hb

namespace Rest

/-- Before a brace, other than the one that ends the object, there is a rest that starts with the
    brace. -/
theorem reads_of_brace {r : Rest} (hr : r.Named) {x y : Text} {b : Char} (hb : isBrace b = true)
    (hy : y ≠ []) (h : r.write = x ++ b :: y) : ∃ r', Reads x r r' ∧ r'.write = b :: y := by
  induction r generalizing x with
  | last =>
      -- the only brace is the one that ends the object
      rw [write_nil] at h
      rcases x with _ | ⟨c, x⟩
      · obtain ⟨rfl, -⟩ := List.cons.inj h
        exact absurd hb (by decide)
      · obtain ⟨-, h⟩ := List.cons.inj h
        rcases x with _ | ⟨d, x⟩
        · exact absurd (List.cons.inj h).2.symm hy
        · exact absurd (congrArg List.length h) (by simp)
  | next k v fs ih =>
      have hquiet := (hr k List.mem_cons_self).quiet_separator
      rw [write_next, ← List.cons_append, ← List.cons_append] at h
      obtain ⟨x', rfl, hx'⟩ := exists_of_append_eq_append_cons (hquiet.not_mem hb) h
      obtain ⟨r', hreads, hw⟩ := ih (fun k' hk' => hr k' (List.mem_cons_of_mem k hk')) hx'
      exact ⟨r', .next k hreads, hw⟩
  | char c v fs ih =>
      rw [write_cons] at h
      -- the cut is at this character, or behind it
      by_cases hc : c = b ∧ x = []
      · obtain ⟨rfl, rfl⟩ := hc
        refine ⟨⟨c :: v, fs⟩, .refl _, ?_⟩
        rw [write_cons, h, List.nil_append]
      · have hmem : ∃ x', x = escapeChar c ++ x' ∧ write ⟨v, fs⟩ = x' ++ b :: y := by
          cases hp : isPlain c with
          | false => exact exists_of_append_eq_append_cons ((quiet_escapeChar hp).not_mem hb) h
          | true =>
              rw [Json.escapeChar_plain hp] at h ⊢
              rcases x with _ | ⟨d, x⟩
              · exact absurd ⟨(List.cons.inj h).1, rfl⟩ hc
              · obtain ⟨hd, htail⟩ := List.cons.inj h
                exact ⟨x, by rw [hd]; rfl, htail⟩
        obtain ⟨x', rfl, hx'⟩ := hmem
        obtain ⟨r', hreads, hw⟩ := ih hr hx'
        exact ⟨r', .char c hreads, hw⟩

end Rest

end PagePress
