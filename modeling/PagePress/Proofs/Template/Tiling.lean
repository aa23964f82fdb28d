/-
  PagePress.Proofs.Template.Tiling

  How the pieces of a template make up its text.

  The pieces put together are the text (`Piece.flatMap_raw_scan`), and between
  the braces of a tag there is no further pair of braces
  (`Piece.unpaired_of_mem_scan`).  Every such tag that stands in the text is
  found, though an opening brace in front of it may be taken for a part of it
  (`Piece.infix_iff_mem_split`).  Where a text has no pair of opening braces
  behind its last tag, more text behind it changes nothing before that
  (`Piece.scan_append`).
-/

import PagePress.Proofs.Template.Enclosed
import PagePress.Template.Token

namespace PagePress

namespace Piece

open Text (Unpaired cutAtPair)

variable {pending t before afterOpen body afterClose skipped inner : Text}

/-! ## One step of the scan -/

/-- The scan without the proofs by which it ends. -/
theorem scan_eq (pending t : Text) :
    scan pending t =
      match cutAtPair '{' t with
      | none => ofPlain (pending ++ t)
      | some (before, afterOpen) =>
        match cutAtPair '}' afterOpen with
        | none => ofPlain (pending ++ t)
        | some (body, afterClose) =>
          match cutAtPair '{' body with
          | some (skipped, inner) =>
            scan (pending ++ before ++ '{' :: '{' :: skipped)
              ('{' :: '{' :: (inner ++ '}' :: '}' :: afterClose))
          | none => ofPlain (pending ++ before) ++ tag body :: scan [] afterClose := by
  rw [scan]
  split
  · rename_i ho
    simp only [ho]
  · rename_i ho
    simp only [ho]
    split
    · rename_i hc
      simp only [hc]
    · rename_i hc
      simp only [hc]
      split
      · rename_i hi
        simp only [hi]
      · rename_i hi
        simp only [hi]

theorem scan_plain (ho : cutAtPair '{' t = none) : scan pending t = ofPlain (pending ++ t) := by
  rw [scan_eq, ho]

/-- Without closing braces the rest is plain text. -/
theorem scan_unclosed (ho : cutAtPair '{' t = some (before, afterOpen))
    (hc : cutAtPair '}' afterOpen = none) : scan pending t = ofPlain (pending ++ t) := by
  rw [scan_eq, ho]
  simp only [hc]

/-- A tag does not start before the last pair of opening braces inside it. -/
theorem scan_retry (ho : cutAtPair '{' t = some (before, afterOpen))
    (hc : cutAtPair '}' afterOpen = some (body, afterClose))
    (hi : cutAtPair '{' body = some (skipped, inner)) :
    scan pending t =
      scan (pending ++ before ++ '{' :: '{' :: skipped)
        ('{' :: '{' :: (inner ++ '}' :: '}' :: afterClose)) := by
  rw [scan_eq, ho]
  simp only [hc, hi]

theorem scan_closed (ho : cutAtPair '{' t = some (before, afterOpen))
    (hc : cutAtPair '}' afterOpen = some (body, afterClose)) (hi : cutAtPair '{' body = none) :
    scan pending t = ofPlain (pending ++ before) ++ tag body :: scan [] afterClose := by
  rw [scan_eq, ho]
  simp only [hc, hi]

/-- A tag without braces in it is found at the first pair of opening braces. -/
theorem scan_tag {rest : Text}
    (ho : cutAtPair '{' t = some (before, body ++ '}' :: '}' :: rest))
    (hbody : '{' ∉ body ∧ '}' ∉ body) :
    scan pending t = ofPlain (pending ++ before) ++ tag body :: scan [] rest :=
  scan_closed ho (Text.cutAtPair_append_pair hbody.2 rest) (Text.cutAtPair_eq_none hbody.1)

/-! ## The text of the pieces -/

theorem flatMap_raw_ofPlain (t : Text) : (ofPlain t).flatMap raw = t := by
  unfold ofPlain
  cases t with
  | nil => rfl
  | cons c t => exact List.append_nil (c :: t)

/-- The pieces put together are the text. -/
theorem flatMap_raw_scan (pending t : Text) : (scan pending t).flatMap raw = pending ++ t := by
  fun_induction scan pending t with
  | case1 pending t => exact flatMap_raw_ofPlain _
  | case2 pending t => exact flatMap_raw_ofPlain _
  | case3 pending t before afterOpen ho body afterClose hc skipped inner hi ih =>
      rw [ih, Text.cutAtPair_eq ho, Text.cutAtPair_eq hc, Text.cutAtPair_eq hi]
      simp only [List.append_assoc, List.cons_append]
  | case4 pending t before afterOpen ho body afterClose hc hi ih =>
      rw [List.flatMap_append, List.flatMap_cons, flatMap_raw_ofPlain, ih, Text.cutAtPair_eq ho,
        Text.cutAtPair_eq hc]
      simp only [raw, braced, List.append_assoc, List.cons_append, List.nil_append]

/-- A tag stands in the text as it was written. -/
theorem infix_of_mem_scan (h : tag body ∈ scan pending t) : braced body <:+: pending ++ t := by
  rw [← flatMap_raw_scan, List.flatMap_def]
  exact List.infix_of_mem_flatten (List.mem_map_of_mem (f := raw) h)

/-- In a tag there is no pair of opening braces, and no pair of closing braces starts there. -/
theorem unpaired_of_mem_scan (h : tag body ∈ scan pending t) :
    Unpaired '{' body ∧ Unpaired '}' (body ++ ['}']) := by
  have hplain : ∀ u, tag body ∉ ofPlain u := by
    intro u hu
    cases u with
    | nil => exact List.not_mem_nil hu
    | cons c u => exact Piece.noConfusion (List.mem_singleton.1 hu)
  fun_induction scan pending t with
  | case1 => exact absurd h (hplain _)
  | case2 => exact absurd h (hplain _)
  | case3 pending t before afterOpen ho body' afterClose hc skipped inner hi ih => exact ih h
  | case4 pending t before afterOpen ho body' afterClose hc hi ih =>
      rw [List.mem_append, List.mem_cons] at h
      rcases h with h | h | h
      · exact absurd h (hplain _)
      · obtain rfl := Piece.tag.inj h
        exact ⟨Text.cutAtPair_eq_none_iff.1 hi, (Text.cutAtPair_eq_some_iff.1 hc).2⟩
      · exact ih h

/-! ## Tags in the text -/

/-- A tag starts at the first pair of opening braces, or at the second brace of it, or behind. -/
theorem tag_at_first_pair (h : Enclosed body) (hi : braced body <:+: t)
    (ho : cutAtPair '{' t = some (before, afterOpen)) :
    (∃ rest, cutAtPair '}' afterOpen = some (body, rest)) ∨
      (∃ rest, cutAtPair '}' afterOpen = some ('{' :: body, rest)) ∨
        braced body <:+: afterOpen := by
  obtain ⟨x, rest, rfl⟩ := hi
  rw [List.append_assoc, braced_append] at ho
  obtain ⟨y, -, hy⟩ := Text.append_of_cutAtPair ho
  rcases y with _ | ⟨c, _ | ⟨d, y⟩⟩
  · refine .inl ⟨rest, Text.cutAtPair_eq_some_iff.2 ⟨?_, h.closes⟩⟩
    exact (List.cons.inj (List.cons.inj hy).2).2
  · refine .inr (.inl ⟨rest, Text.cutAtPair_eq_some_iff.2 ⟨?_, ?_⟩⟩)
    · exact (List.cons.inj (List.cons.inj hy).2).2
    · exact Text.unpaired_cons.2 ⟨fun hc => absurd hc (by decide), h.closes⟩
  · refine .inr (.inr ⟨y, rest, ?_⟩)
    rw [List.append_assoc, braced_append]
    exact (List.cons.inj (List.cons.inj hy).2).2.symm

/-- Every tag that stands in the text is found, if not with one brace more in front. -/
theorem mem_scan_of_infix (h : Enclosed body) (hi : braced body <:+: t) :
    tag body ∈ scan pending t ∨ tag ('{' :: body) ∈ scan pending t := by
  fun_induction scan pending t with
  | case1 pending t ho =>
      refine absurd (Text.cutAtPair_eq_none_iff.1 ho) ?_
      rw [Text.unpaired_iff, not_not]
      exact List.IsInfix.trans ⟨[], body ++ ['}', '}'], rfl⟩ hi
  | case2 pending t before afterOpen ho hc =>
      rcases tag_at_first_pair h hi ho with ⟨rest, heq⟩ | ⟨rest, heq⟩ | hi
      · rw [hc] at heq
        exact absurd heq.symm (Option.some_ne_none _)
      · rw [hc] at heq
        exact absurd heq.symm (Option.some_ne_none _)
      · refine absurd (Text.cutAtPair_eq_none_iff.1 hc) ?_
        rw [Text.unpaired_iff, not_not]
        exact List.IsInfix.trans ⟨'{' :: '{' :: body, [], by simp [braced]⟩ hi
  | case3 pending t before afterOpen ho body' afterClose hc skipped inner hpair ih =>
      have hunpaired : ¬ Unpaired '{' body' := by
        rw [← Text.cutAtPair_eq_none_iff, hpair]
        exact Option.some_ne_none _
      rcases tag_at_first_pair h hi ho with ⟨rest, heq⟩ | ⟨rest, heq⟩ | hi
      · rw [hc] at heq
        rw [(Prod.mk.inj (Option.some.inj heq)).1] at hunpaired
        exact absurd (Text.unpaired_cons.1 h.opens).2 hunpaired
      · rw [hc] at heq
        rw [(Prod.mk.inj (Option.some.inj heq)).1] at hunpaired
        exact absurd h.opens hunpaired
      · -- behind the first pair it starts at the pair inside or behind that
        refine ih ?_
        obtain ⟨x, rest, heq⟩ := hi
        have hcut := Text.cutAtPair_append_right hpair ('}' :: '}' :: afterClose)
        rw [← Text.cutAtPair_eq hc, ← heq, List.append_assoc, braced_append] at hcut
        obtain ⟨y, -, hy⟩ := Text.append_of_cutAtPair hcut
        rw [hy, ← braced_append, ← List.append_assoc]
        exact List.infix_append y _ rest
  | case4 pending t before afterOpen ho body' afterClose hc hpair ih =>
      rw [List.mem_append, List.mem_append, List.mem_cons, List.mem_cons]
      rcases tag_at_first_pair h hi ho with ⟨rest, heq⟩ | ⟨rest, heq⟩ | hi
      · rw [hc] at heq
        obtain ⟨rfl, -⟩ := Prod.mk.inj (Option.some.inj heq)
        exact .inl (.inr (.inl rfl))
      · rw [hc] at heq
        obtain ⟨rfl, -⟩ := Prod.mk.inj (Option.some.inj heq)
        exact .inr (.inr (.inl rfl))
      · -- behind the first pair it stands behind the tag that was found there
        obtain ⟨x, rest, heq⟩ := hi
        rw [Text.cutAtPair_eq hc, List.append_assoc, braced_append] at heq
        obtain ⟨y, -, hy⟩ := opens_behind (Text.cutAtPair_eq_none_iff.1 hpair) heq.symm
        have hinfix : braced body <:+: afterClose := by
          rw [hy, ← braced_append, ← List.append_assoc]
          exact List.infix_append y _ rest
        exact (ih hinfix).imp (.inr <| .inr ·) (.inr <| .inr ·)

/-- The tags that stand in a text are those that are found in it, an opening brace in front of
    them left out. -/
theorem infix_iff_mem_split (h : Enclosed body) :
    braced body <:+: t ↔ tag body ∈ split t ∨ tag ('{' :: body) ∈ split t := by
  constructor
  · exact mem_scan_of_infix h
  · rintro (hmem | hmem)
    · exact infix_of_mem_scan hmem
    · exact List.IsInfix.trans ⟨['{'], [], List.append_nil _⟩ (infix_of_mem_scan hmem)

/-! ## Text that goes on -/

/-- Text in front of the scan goes to the first piece of plain text. -/
theorem exists_scan_eq (t : Text) :
    ∃ first ps, ∀ pending, scan pending t = ofPlain (pending ++ first) ++ ps := by
  -- on the scan of the text with nothing in front
  generalize hp : ([] : Text) = pending
  clear hp
  fun_induction scan pending t with
  | case1 pending t ho =>
      exact ⟨t, [], fun p => by rw [scan_plain ho, List.append_nil]⟩
  | case2 pending t before afterOpen ho hc =>
      exact ⟨t, [], fun p => by rw [scan_unclosed ho hc, List.append_nil]⟩
  | case3 pending t before afterOpen ho body afterClose hc skipped inner hi ih =>
      obtain ⟨first, ps, hps⟩ := ih
      refine ⟨before ++ '{' :: '{' :: skipped ++ first, ps, fun p => ?_⟩
      rw [scan_retry ho hc hi, hps]
      simp only [List.append_assoc]
  | case4 pending t before afterOpen ho body afterClose hc hi ih =>
      exact ⟨before, tag body :: scan [] afterClose, fun p => scan_closed ho hc hi⟩

/-- Text that ends in no pair of opening braces, not even together with what follows, is passed
    over. -/
theorem scan_pass (h : Unpaired '{' t) (hlast : t.getLast? ≠ some '{') (pending u : Text) :
    scan pending (t ++ u) = scan (pending ++ t) u := by
  have hcut := Text.cutAtPair_append h hlast u
  cases ho : cutAtPair '{' u with
  | none =>
      rw [ho] at hcut
      rw [scan_plain hcut, scan_plain ho, List.append_assoc]
  | some p =>
      obtain ⟨before, afterOpen⟩ := p
      rw [ho] at hcut
      cases hc : cutAtPair '}' afterOpen with
      | none => rw [scan_unclosed hcut hc, scan_unclosed ho hc, List.append_assoc]
      | some p =>
          obtain ⟨body, afterClose⟩ := p
          cases hi : cutAtPair '{' body with
          | none => rw [scan_closed hcut hc hi, scan_closed ho hc hi, List.append_assoc]
          | some p => rw [scan_retry hcut hc hi, scan_retry ho hc hi, List.append_assoc pending t]

/-- The plain text behind the last tag. -/
def trailing (ps : List Piece) : Text :=
  match ps.getLast? with
  | some (plain t) => t
  | _ => []

theorem trailing_ofPlain (t : Text) : trailing (ofPlain t) = t := by
  cases t <;> rfl

theorem trailing_append_tag (qs : List Piece) (body : Text) (ps : List Piece) :
    trailing (qs ++ tag body :: ps) = trailing ps := by
  unfold trailing
  rw [List.getLast?_append, List.getLast?_cons]
  cases ps.getLast? <;> rfl

/-- Behind its last tag a text can be continued: if no pair of opening braces stands there, not
    even one that reaches into the continuation, the pieces up to that tag stay. -/
theorem scan_append (pending t : Text) :
    ∃ ps, scan pending t = ps ++ ofPlain (trailing (scan pending t)) ∧
      (Unpaired '{' (trailing (scan pending t)) →
        (trailing (scan pending t)).getLast? ≠ some '{' →
        ∀ u, scan pending (t ++ u) = ps ++ scan (trailing (scan pending t)) u) := by
  fun_induction scan pending t with
  | case1 pending t ho =>
      rw [trailing_ofPlain]
      refine ⟨[], rfl, fun h hlast u => scan_pass (Text.unpaired_append.1 h).2.1 ?_ pending u⟩
      intro hl
      rw [List.getLast?_append, hl] at hlast
      exact hlast rfl
  | case2 pending t before afterOpen ho hc =>
      -- the pair of opening braces that is never closed stands in the text
      rw [trailing_ofPlain]
      refine ⟨[], rfl, fun h => ?_⟩
      rw [Text.cutAtPair_eq_none_iff.2 (Text.unpaired_append.1 h).2.1] at ho
      exact absurd ho.symm (Option.some_ne_none _)
  | case3 pending t before afterOpen ho body afterClose hc skipped inner hi ih =>
      obtain ⟨ps, hps, hgoes⟩ := ih
      refine ⟨ps, hps, fun h hlast u => ?_⟩
      have hopen := Text.cutAtPair_append_right ho u
      have hclose := Text.cutAtPair_append_right hc u
      rw [scan_retry hopen hclose hi, ← hgoes h hlast u]
      simp only [List.cons_append, List.append_assoc]
  | case4 pending t before afterOpen ho body afterClose hc hi ih =>
      obtain ⟨ps, hps, hgoes⟩ := ih
      rw [trailing_append_tag]
      refine ⟨ofPlain (pending ++ before) ++ tag body :: ps, ?_, fun h hlast u => ?_⟩
      · rw [List.append_assoc, List.cons_append, ← hps]
      · have hopen := Text.cutAtPair_append_right ho u
        have hclose := Text.cutAtPair_append_right hc u
        rw [scan_closed hopen hclose hi, hgoes h hlast u, List.append_assoc, List.cons_append]

end Piece

namespace Token

/-! ## Tokens -/

theorem exists_of_mem_place {ps : List Piece} {start : Nat} {k : Token}
    (h : k ∈ place start ps) : ∃ p ∈ ps, k.raw = p.raw ∧ k.tag? = tagOf p := by
  induction ps generalizing start with
  | nil => exact absurd h List.not_mem_nil
  | cons p ps ih =>
      rcases List.mem_cons.1 h with rfl | h
      · exact ⟨p, List.mem_cons_self, rfl, rfl⟩
      · obtain ⟨q, hq, hk⟩ := ih h
        exact ⟨q, List.mem_cons_of_mem p hq, hk⟩

theorem exists_of_tag? {t : Text} {k : Token} {tag : Tag} (h : k ∈ ofText t)
    (htag : k.tag? = some tag) :
    ∃ body, Piece.tag body ∈ Piece.split t ∧ k.raw = braced body ∧ tag = .classify body := by
  obtain ⟨p, hp, hraw, hk⟩ := exists_of_mem_place h
  rw [htag] at hk
  cases p with
  | plain u => exact absurd hk (Option.some_ne_none tag)
  | tag body => exact ⟨body, hp, hraw, Option.some.inj hk⟩

end Token

end PagePress
