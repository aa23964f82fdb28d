/-
  PagePress.Proofs.Template.Cover

  Tokens cover a template.

  The spans of the tokens follow each other without a gap from the first byte
  to the last one (`Span.Tile`).  What lies between two tags is one token of
  plain text, and no pair of opening braces in it is closed there (`Unclosed`):
  the scan gives up an opening pair only for a later one that the same closing
  pair belongs to (`Piece.exists_scan_unclosed`).
-/

import PagePress.Proofs.Template.Place

namespace PagePress

open Text (Unpaired cutAtPair)

/-! ## Text without a tag -/

/-- No pair of opening braces is followed by a pair of closing ones. -/
def Unclosed (t : Text) : Prop :=
  ∀ front inner back, t ≠ front ++ '{' :: '{' :: (inner ++ '}' :: '}' :: back)

/-- It is enough to look behind the first pair of opening braces. -/
theorem unclosed_iff {t : Text} :
    Unclosed t ↔ ∀ before after, cutAtPair '{' t = some (before, after) → Unpaired '}' after := by
  constructor
  · intro h before after hcut
    rw [Text.unpaired_iff]
    rintro ⟨inner, back, rfl⟩
    apply h before inner back
    rw [Text.cutAtPair_eq hcut, List.append_assoc]
    rfl
  · intro h front inner back heq
    have hpair : ['{', '{'] <:+: t := ⟨front, inner ++ '}' :: '}' :: back, by simp [heq]⟩
    cases hcut : cutAtPair '{' t with
    | none => exact Text.unpaired_iff.1 (Text.cutAtPair_eq_none_iff.1 hcut) hpair
    | some p =>
        obtain ⟨before, after⟩ := p
        have hafter := Text.unpaired_iff.1 (h before after hcut)
        rw [heq] at hcut
        obtain ⟨y, -, hy⟩ := Text.append_of_cutAtPair hcut
        -- what follows any opening pair lies behind the first one
        have hlength := congrArg List.length hy
        simp only [List.length_append, List.length_cons] at hlength
        have hsuffix : inner ++ '}' :: '}' :: back <:+ after := by
          have hlate : inner ++ '}' :: '}' :: back <:+ '{' :: '{' :: after :=
            ⟨y ++ ['{', '{'], by simp [hy]⟩
          refine List.suffix_of_suffix_length_le hlate (List.suffix_append ['{', '{'] after) ?_
          simp only [List.length_append, List.length_cons]
          omega
        exact hafter (List.IsInfix.trans ⟨inner, back, by simp⟩ hsuffix.isInfix)

theorem unclosed_of_unpaired {t : Text} (h : Unpaired '{' t) : Unclosed t := by
  rw [unclosed_iff, Text.cutAtPair_eq_none_iff.2 h]
  intro before after hcut
  exact absurd hcut.symm (Option.some_ne_none _)

namespace Piece

variable {pending t : Text}

theorem eq_of_mem_ofPlain {t : Text} {p : Piece} (h : p ∈ ofPlain t) : p = plain t := by
  unfold ofPlain at h
  split at h
  · exact absurd h List.not_mem_nil
  · exact List.mem_singleton.1 h

/-- The plain text in front of the first tag ends before the first pair of closing braces that
    follows a pair of opening ones, and none of the plain text has such pairs in it. -/
theorem exists_scan_unclosed (t : Text) :
    ∃ first ps, (∀ pending, scan pending t = ofPlain (pending ++ first) ++ ps) ∧
      (∀ before afterOpen body afterClose, cutAtPair '{' t = some (before, afterOpen) →
        cutAtPair '}' afterOpen = some (body, afterClose) →
          first <+: before ++ '{' :: '{' :: body) ∧
      Unclosed first ∧ ∀ u, plain u ∈ ps → Unclosed u := by
  -- on the scan of the text with nothing in front
  generalize hp : ([] : Text) = pending
  clear hp
  fun_induction scan pending t with
  | case1 pending t ho =>
      refine ⟨t, [], fun p => by rw [scan_plain ho, List.append_nil], ?_, ?_,
        fun _ hnil => absurd hnil List.not_mem_nil⟩
      · intro before afterOpen body afterClose ho'
        rw [ho] at ho'
        exact absurd ho'.symm (Option.some_ne_none _)
      · exact unclosed_of_unpaired (Text.cutAtPair_eq_none_iff.1 ho)
  | case2 pending t before afterOpen ho hc =>
      refine ⟨t, [], fun p => by rw [scan_unclosed ho hc, List.append_nil], ?_, ?_,
        fun _ hnil => absurd hnil List.not_mem_nil⟩
      · intro before' afterOpen' body afterClose ho' hc'
        rw [ho] at ho'
        obtain ⟨-, rfl⟩ := Prod.mk.inj (Option.some.inj ho')
        rw [hc] at hc'
        exact absurd hc'.symm (Option.some_ne_none _)
      · rw [unclosed_iff]
        intro before' afterOpen' ho'
        rw [ho] at ho'
        obtain ⟨-, rfl⟩ := Prod.mk.inj (Option.some.inj ho')
        exact Text.cutAtPair_eq_none_iff.1 hc
  | case3 pending t before afterOpen ho body afterClose hc skipped inner hi ih =>
      obtain ⟨first, ps, hscan, hfirst, -, hps⟩ := ih
      have hbody := Text.cutAtPair_eq hi
      obtain ⟨-, hclose⟩ := Text.cutAtPair_eq_some_iff.1 hc
      -- the later pair of opening braces is closed by the same pair
      have hinner : cutAtPair '}' (inner ++ '}' :: '}' :: afterClose) =
          some (inner, afterClose) := by
        have hinside : inner ++ ['}'] <:+: body ++ ['}'] :=
          ⟨skipped ++ ['{', '{'], [], by simp [hbody]⟩
        exact Text.cutAtPair_eq_some_iff.2 ⟨rfl, List.IsChain.infix hclose hinside⟩
      have hreach : first <+: '{' :: '{' :: inner :=
        hfirst [] (inner ++ '}' :: '}' :: afterClose) inner afterClose (if_pos ⟨rfl, rfl⟩) hinner
      have hskipped : skipped ++ first <+: body := by
        rw [hbody]
        exact (List.prefix_append_right_inj skipped).2 hreach
      refine ⟨before ++ '{' :: '{' :: skipped ++ first, ps, fun p => ?_, ?_, ?_, hps⟩
      · rw [scan_retry ho hc hi, hscan]
        simp only [List.append_assoc]
      · intro before' afterOpen' body' afterClose' ho' hc'
        rw [ho] at ho'
        obtain ⟨rfl, rfl⟩ := Prod.mk.inj (Option.some.inj ho')
        rw [hc] at hc'
        obtain ⟨rfl, -⟩ := Prod.mk.inj (Option.some.inj hc')
        obtain ⟨rest, hrest⟩ := hskipped
        exact ⟨rest, by simp [← hrest]⟩
      · rw [unclosed_iff]
        intro before' afterOpen' ho'
        have hcut : cutAtPair '{' (before ++ '{' :: '{' :: skipped ++ first) =
            some (before, skipped ++ first) :=
          Text.cutAtPair_eq_some_iff.2 ⟨by simp, (Text.cutAtPair_eq_some_iff.1 ho).2⟩
        rw [hcut] at ho'
        obtain ⟨-, rfl⟩ := Prod.mk.inj (Option.some.inj ho')
        exact List.IsChain.infix (Text.unpaired_append.1 hclose).1 hskipped.isInfix
  | case4 pending t before afterOpen ho body afterClose hc hi ih =>
      obtain ⟨first, ps, hscan, -, hfirst, hps⟩ := ih
      refine ⟨before, tag body :: scan [] afterClose, fun p => scan_closed ho hc hi, ?_, ?_, ?_⟩
      · intro before' afterOpen' body' afterClose' ho' hc'
        rw [ho] at ho'
        obtain ⟨rfl, -⟩ := Prod.mk.inj (Option.some.inj ho')
        exact List.prefix_append before _
      · exact unclosed_of_unpaired
          (Text.unpaired_append.1 (Text.cutAtPair_eq_some_iff.1 ho).2).1
      · intro u hu
        rw [hscan, List.nil_append, List.mem_cons, List.mem_append] at hu
        rcases hu with hu | hu | hu
        · exact Piece.noConfusion hu
        · obtain rfl := plain.inj (eq_of_mem_ofPlain hu)
          exact hfirst
        · exact hps u hu

theorem unclosed_of_mem_split {u : Text} (h : plain u ∈ split t) : Unclosed u := by
  obtain ⟨first, ps, hscan, -, hfirst, hps⟩ := exists_scan_unclosed t
  rw [split, hscan, List.nil_append, List.mem_append] at h
  rcases h with h | h
  · obtain rfl := plain.inj (eq_of_mem_ofPlain h)
    exact hfirst
  · exact hps u h

/-! ## Plain text between tags -/

/-- Of two pieces one behind the other, one is a tag. -/
def Apart (p q : Piece) : Prop := Token.tagOf p = none → Token.tagOf q ≠ none

theorem isChain_apart_scan (pending t : Text) : (scan pending t).IsChain Apart := by
  have hplain (u : Text) : (ofPlain u).IsChain Apart := by
    unfold ofPlain
    split
    · exact .nil
    · exact .singleton _
  fun_induction scan pending t with
  | case1 => exact hplain _
  | case2 => exact hplain _
  | case3 pending t before afterOpen _ body afterClose _ skipped inner _ ih => exact ih
  | case4 pending t before afterOpen _ body afterClose _ _ ih =>
      refine List.isChain_append.2 ⟨hplain _, List.isChain_cons.2 ⟨?_, ih⟩, ?_⟩
      · intro q _ htag
        exact absurd htag (Option.some_ne_none _)
      · intro p _ q hq _
        obtain rfl : tag body = q := Option.some.inj hq
        exact Option.some_ne_none _

end Piece

/-! ## Spans in a row -/

/-- Spans that follow each other from one place to another, without a gap and none empty. -/
def Span.Tile : Nat → Nat → List Span → Prop
  | start, stop, [] => start = stop
  | start, stop, s :: ss => s.start = start ∧ s.start < s.stop ∧ Tile s.stop stop ss

namespace Token

theorem tile_place {ps : List Piece} (h : ∀ p ∈ ps, p.raw ≠ []) (start : Nat) :
    Span.Tile start (start + Text.bytes (ps.flatMap Piece.raw)) ((place start ps).map span) := by
  induction ps generalizing start with
  | nil => rfl
  | cons p ps ih =>
      have hpos := Text.bytes_pos (h p List.mem_cons_self)
      have hrest := ih (fun q hq => h q (List.mem_cons_of_mem p hq)) (start + Text.bytes p.raw)
      rw [Nat.add_assoc, ← Text.bytes_append] at hrest
      rw [place, List.map_cons, List.flatMap_cons]
      exact ⟨rfl, Nat.lt_add_of_pos_right hpos, hrest⟩

theorem flatMap_raw_place (start : Nat) (ps : List Piece) :
    (place start ps).flatMap raw = ps.flatMap Piece.raw := by
  induction ps generalizing start with
  | nil => rfl
  | cons p ps ih => rw [place, List.flatMap_cons, List.flatMap_cons, ih]

theorem map_tag?_place (start : Nat) (ps : List Piece) :
    (place start ps).map tag? = ps.map tagOf := by
  induction ps generalizing start with
  | nil => rfl
  | cons p ps ih => rw [place, List.map_cons, List.map_cons, ih]

theorem unclosed_of_tag? {source : Text} {t : Token} (h : t ∈ ofText source)
    (ht : t.tag? = none) : Unclosed t.raw := by
  obtain ⟨p, hp, hraw, htag⟩ := exists_of_mem_place h
  cases p with
  | plain u =>
      rw [hraw]
      exact Piece.unclosed_of_mem_split hp
  | tag body =>
      rw [ht] at htag
      exact absurd htag.symm (Option.some_ne_none _)

/-- The tokens of a template cover it from its first byte to its last one, without a gap or an
    empty token, and each has its text from its place.  Plain text between two tags is one token,
    and no tag could be found in it; a tag has no pair of braces between its own. -/
theorem ofText_covers (source : Text) :
    (ofText source = [] ↔ source = []) ∧
      Span.Tile 0 (Text.bytes source) ((ofText source).map span) ∧
      (ofText source).flatMap raw = source ∧
      (∀ t ∈ ofText source, t.span.Holds source t.raw) ∧
      (ofText source).IsChain (fun t u => t.tag? = none → u.tag? ≠ none) ∧
      ∀ t ∈ ofText source,
        match t.tag? with
        | some tag => ∃ body, t.raw = braced body ∧ tag = .classify body ∧
            ¬ ['{', '{'] <:+: body ∧ ¬ ['}', '}'] <:+: body
        | none => ∀ front inner back,
            t.raw ≠ front ++ '{' :: '{' :: (inner ++ '}' :: '}' :: back) := by
  have hsource : (Piece.split source).flatMap Piece.raw = source := by
    rw [Piece.split, Piece.flatMap_raw_scan, List.nil_append]
  have hraw : (ofText source).flatMap raw = source := by
    rw [ofText, flatMap_raw_place, hsource]
  have htile : Span.Tile 0 (Text.bytes source) ((ofText source).map span) := by
    have hne : ∀ p ∈ Piece.split source, p.raw ≠ [] := fun p => Piece.raw_ne_nil_of_mem_scan
    have hplace := tile_place hne 0
    rwa [Nat.zero_add, hsource] at hplace
  refine ⟨⟨fun h => ?_, fun h => ?_⟩, htile, hraw, fun t => holds_of_mem_ofText, ?_, ?_⟩
  · rw [← hraw, h]
    rfl
  · rw [h, ofText, Piece.split, Piece.scan_plain rfl]
    rfl
  · have hchain := Piece.isChain_apart_scan [] source
    have htags : ((ofText source).map tag?).IsChain fun a b => a = none → b ≠ none := by
      rw [ofText, map_tag?_place, List.isChain_map]
      exact hchain
    exact (List.isChain_map tag?).1 htags
  · intro t ht
    cases htag : t.tag? with
    | none => exact unclosed_of_tag? ht htag
    | some tag =>
        obtain ⟨body, hbody, hbraced, hclassify⟩ := exists_of_tag? ht htag
        obtain ⟨hopen, hclose⟩ := Piece.unpaired_of_mem_scan hbody
        exact ⟨body, hbraced, hclassify, Text.unpaired_iff.1 hopen,
          Text.unpaired_iff.1 (Text.unpaired_append.1 hclose).1⟩

end Token

end PagePress
