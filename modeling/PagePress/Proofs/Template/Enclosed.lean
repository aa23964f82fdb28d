/-
  PagePress.Proofs.Template.Enclosed

  Tags in a text do not overlap.

  What stands between the braces of a tag has no pair of opening braces and no
  pair of closing ones, not even together with the braces around it.  So two
  tags that start together are one (`Enclosed.braced_inj`), and any other two
  stand one behind the other (`Enclosed.cut`).
-/

import PagePress.Proofs.Text.Pair
import PagePress.Template.Braces

namespace PagePress

open Text (Unpaired)

theorem braced_append (content t : Text) :
    braced content ++ t = '{' :: '{' :: (content ++ '}' :: '}' :: t) := by
  simp only [braced, List.cons_append, List.append_assoc, List.nil_append]

/-- Where closing braces follow text without a pair of opening ones, such a pair stands behind
    them. -/
theorem opens_behind {body rest x u : Text} (h : Unpaired '{' body)
    (heq : body ++ '}' :: '}' :: rest = x ++ '{' :: '{' :: u) :
    ∃ y, x = body ++ '}' :: '}' :: y ∧ rest = y ++ '{' :: '{' :: u := by
  rcases List.append_eq_append_iff.1 heq with ⟨y, rfl, hy⟩ | ⟨y, rfl, hy⟩
  · -- the opening braces are not the closing ones
    rcases y with _ | ⟨d, _ | ⟨e, y⟩⟩
    · exact absurd (List.cons.inj hy).1 (by decide)
    · exact absurd (List.cons.inj (List.cons.inj hy).2).1 (by decide)
    · obtain ⟨rfl, hy₁⟩ := List.cons.inj hy
      obtain ⟨rfl, hrest⟩ := List.cons.inj hy₁
      exact ⟨y, rfl, hrest⟩
  · -- they do not start before them either
    rcases y with _ | ⟨d, _ | ⟨e, y⟩⟩
    · exact absurd (List.cons.inj hy).1 (by decide)
    · exact absurd (List.cons.inj (List.cons.inj hy).2).1 (by decide)
    · obtain ⟨rfl, hy₁⟩ := List.cons.inj hy
      obtain ⟨rfl, -⟩ := List.cons.inj hy₁
      exact absurd ⟨x, y, by simp⟩ (Text.unpaired_iff.1 h)

/-! ## Content of tags -/

/-- Text without a pair that makes none with its neighbours either. -/
structure Clear (pair : Char) (t : Text) : Prop where
  unpaired : Unpaired pair t
  head : t.head? ≠ some pair
  last : t.getLast? ≠ some pair

namespace Clear

variable {pair : Char} {s t : Text}

theorem of_not_mem (h : pair ∉ t) : Clear pair t where
  unpaired := Text.unpaired_of_not_mem h
  head hh := h (List.mem_of_mem_head? hh)
  last hl := h (List.mem_of_mem_getLast? hl)

theorem append (hs : Clear pair s) (ht : Clear pair t) : Clear pair (s ++ t) where
  unpaired := Text.unpaired_append.2 ⟨hs.unpaired, ht.unpaired, fun hl => absurd hl hs.last⟩
  head := by
    cases s with
    | nil => exact ht.head
    | cons c s => exact hs.head
  last := by
    rw [List.getLast?_append]
    cases hl : t.getLast? with
    | none => exact hs.last
    | some c =>
        rw [Option.some_or, ← hl]
        exact ht.last

/-- Any text without a pair may stand between two marks. -/
theorem between {c d : Char} (hc : c ≠ pair) (hd : d ≠ pair) (h : Unpaired pair t) :
    Clear pair (c :: (t ++ [d])) where
  unpaired := Text.unpaired_cons.2 ⟨fun heq => absurd heq hc, Text.unpaired_append.2
    ⟨h, List.isChain_singleton d, fun _ hh => hd (Option.some.inj hh)⟩⟩
  head hh := hc (Option.some.inj hh)
  last hl := by
    rw [← List.cons_append, List.getLast?_concat] at hl
    exact hd (Option.some.inj hl)

end Clear

/-- Text that can stand between the braces of a tag: no pair of opening braces ends in it and no
    pair of closing braces starts in it. -/
structure Enclosed (body : Text) : Prop where
  opens : Unpaired '{' ('{' :: body)
  closes : Unpaired '}' (body ++ ['}'])

namespace Enclosed

variable {body content rest rest' x : Text}

theorem of_clear (hopen : Clear '{' body) (hclose : Clear '}' body) : Enclosed body where
  opens := Text.unpaired_cons.2 ⟨fun _ => hopen.head, hopen.unpaired⟩
  closes := Text.unpaired_append.2
    ⟨hclose.unpaired, List.isChain_singleton _, fun hl => absurd hl hclose.last⟩

theorem of_not_mem (hopen : '{' ∉ body) (hclose : '}' ∉ body) : Enclosed body :=
  of_clear (.of_not_mem hopen) (.of_not_mem hclose)

/-- Two tags that start together are one. -/
theorem braced_inj (h : Enclosed body) (h' : Enclosed content)
    (heq : braced body ++ rest = braced content ++ rest') : body = content ∧ rest = rest' := by
  rw [braced_append, braced_append, List.cons.injEq, List.cons.injEq] at heq
  -- both contents end at the first pair of closing braces
  have hcut := Text.cutAtPair_eq_some_iff.2 ⟨heq.2.2.symm, h.closes⟩
  rw [Text.cutAtPair_eq_some_iff.2 ⟨rfl, h'.closes⟩] at hcut
  obtain ⟨rfl, rfl⟩ := Prod.mk.inj (Option.some.inj hcut)
  exact ⟨rfl, rfl⟩

/-- A tag that does not start where another one starts stands behind it. -/
theorem cut (h : Enclosed body) (heq : braced body ++ rest = x ++ (braced content ++ rest')) :
    x = [] ∨ ∃ y, x = braced body ++ y ∧ rest = y ++ (braced content ++ rest') := by
  cases x with
  | nil => exact .inl rfl
  | cons c x =>
      rw [braced_append, braced_append, List.cons_append, List.cons.injEq] at heq
      obtain ⟨rfl, heq⟩ := heq
      rw [braced_append]
      obtain ⟨y, rfl, hrest⟩ := opens_behind h.opens heq
      exact .inr ⟨y, by simp [braced], hrest⟩

end Enclosed

end PagePress
