/-
  PagePress.Proofs.Template.Place

  Where the tokens of a template stand.

  Every token has its text from the template, at its span
  (`Token.holds_of_mem_ofText`).  No piece of a template is empty, so every
  token ends before the next one starts, and a span belongs to one token only.
-/

import Mathlib.Data.List.Nodup
import PagePress.Proofs.Template.Tiling

namespace PagePress

theorem Text.bytes_pos {t : Text} (h : t ≠ []) : 0 < bytes t := by
  cases t with
  | nil => exact absurd rfl h
  | cons c t =>
      have hc : 0 < c.utf8Size := c.utf8Size_pos
      rw [bytes_cons]
      omega

/-! ## Spans -/

namespace Span

/-- A span that is not empty ends where the other one starts, or before that. -/
structure Before (s u : Span) : Prop where
  start_lt_stop : s.start < s.stop
  stop_le_start : s.stop ≤ u.start

/-- The part of a template at a span is some text. -/
def Holds (s : Span) (source raw : Text) : Prop :=
  ∃ front back, source = front ++ (raw ++ back) ∧ Text.bytes front = s.start ∧
    s.start + Text.bytes raw = s.stop

end Span

/-! ## Pieces in a row -/

namespace Piece

theorem raw_ne_nil_of_mem_ofPlain {t : Text} {p : Piece} (h : p ∈ ofPlain t) : p.raw ≠ [] := by
  unfold ofPlain at h
  cases t with
  | nil => simp at h
  | cons c t =>
      simp only [List.isEmpty_cons, Bool.false_eq_true, if_false, List.mem_singleton] at h
      rw [h]
      exact List.cons_ne_nil c t

theorem raw_ne_nil_of_mem_scan {pending t : Text} {p : Piece} (h : p ∈ scan pending t) :
    p.raw ≠ [] := by
  -- plain text is a piece only if there is some, and a tag has its braces at least
  fun_induction scan pending t with
  | case1 => exact raw_ne_nil_of_mem_ofPlain h
  | case2 => exact raw_ne_nil_of_mem_ofPlain h
  | case3 pending t before afterOpen _ body afterClose _ skipped inner _ ih => exact ih h
  | case4 pending t before afterOpen _ body afterClose _ _ ih =>
      rw [List.mem_append, List.mem_cons] at h
      rcases h with h | rfl | h
      · exact raw_ne_nil_of_mem_ofPlain h
      · exact List.cons_ne_nil _ _
      · exact ih h

end Piece

namespace Token

theorem le_start_of_mem_place {ps : List Piece} {start : Nat} {t : Token}
    (h : t ∈ place start ps) : start ≤ t.span.start := by
  induction ps generalizing start with
  | nil => simp [place] at h
  | cons p ps ih =>
      rw [place, List.mem_cons] at h
      rcases h with rfl | h
      · exact Nat.le_refl _
      · have hle := ih h
        omega

theorem place_pairwise {ps : List Piece} (h : ∀ p ∈ ps, p.raw ≠ []) (start : Nat) :
    (place start ps).Pairwise fun t u => t.span.Before u.span := by
  induction ps generalizing start with
  | nil => exact .nil
  | cons p ps ih =>
      rw [place, List.pairwise_cons]
      refine ⟨fun u hu => ?_, ih (fun q hq => h q (List.mem_cons_of_mem _ hq)) _⟩
      have hle := le_start_of_mem_place hu
      have hpos := Text.bytes_pos (h p List.mem_cons_self)
      exact ⟨Nat.lt_add_of_pos_right hpos, hle⟩

/-- The tokens of a template stand one behind the other. -/
theorem pairwise_span_ofText (t : Text) : ((ofText t).map span).Pairwise Span.Before := by
  rw [List.pairwise_map]
  exact place_pairwise (fun p hp => Piece.raw_ne_nil_of_mem_scan hp) 0

/-- The tokens of a template have different spans. -/
theorem nodup_span_ofText (t : Text) : ((ofText t).map span).Nodup := by
  refine (pairwise_span_ofText t).imp ?_
  intro s u hbefore heq
  obtain ⟨hpos, hle⟩ := hbefore
  rw [heq] at hpos hle
  omega

/-- A token stands in the pieces that it was placed with. -/
theorem holds_of_mem_place {ps : List Piece} {front : Text} {t : Token}
    (h : t ∈ place (Text.bytes front) ps) : t.span.Holds (front ++ ps.flatMap Piece.raw) t.raw := by
  induction ps generalizing front with
  | nil => exact absurd h List.not_mem_nil
  | cons p ps ih =>
      rw [List.flatMap_cons]
      rw [place, List.mem_cons] at h
      rcases h with rfl | h
      · exact ⟨front, ps.flatMap Piece.raw, rfl, rfl, rfl⟩
      · rw [← Text.bytes_append] at h
        have hholds := ih h
        rw [List.append_assoc] at hholds
        exact hholds

/-- A token of a template has its text from there. -/
theorem holds_of_mem_ofText {source : Text} {t : Token} (h : t ∈ ofText source) :
    t.span.Holds source t.raw := by
  have hholds : t.span.Holds ([] ++ (Piece.split source).flatMap Piece.raw) t.raw :=
    holds_of_mem_place h
  rw [List.nil_append, Piece.split, Piece.flatMap_raw_scan] at hholds
  exact hholds

end Token

end PagePress
