/-
  PagePress.Proofs.Cleanup.Confluence

  The order in which leftover tags are removed.

  Two tags in a text do not overlap, so of two removals either can be done
  after the other (`Removes.diamond`), and every way to remove tags until none
  is left ends in the same text (`eq_strip`).  No tag reaches into a marker,
  so the texts before and behind a marker are cleaned on their own
  (`strip_append_marker`).
-/

import Mathlib.Logic.Function.Iterate
import PagePress.Proofs.Cleanup.Leftover

namespace PagePress.Cleanup

open Relation (ReflTransGen)

/-! ## Removals in any order -/

namespace Removes

theorem append_right {t u : Text} (h : Removes t u) (p : Text) : Removes (t ++ p) (u ++ p) := by
  obtain ⟨before, after, hc, hm⟩ := h
  simp only [List.append_assoc]
  exact .mk before (after ++ p) hc hm

/-- A removal and one at the same place or further on. -/
theorem join (before : Text) {content content' x after after' : Text}
    (hc : content.all isContent = true) (hm : isMarker content = false)
    (hc' : content'.all isContent = true) (hm' : isMarker content' = false)
    (heq : braced content ++ after = x ++ (braced content' ++ after')) :
    before ++ after = before ++ (x ++ after') ∨
      ∃ w, Removes (before ++ after) w ∧ Removes (before ++ (x ++ after')) w := by
  rcases (enclosed_of_isContent hc).cut heq with rfl | ⟨y, rfl, rfl⟩
  · obtain ⟨-, rfl⟩ := (enclosed_of_isContent hc).braced_inj (enclosed_of_isContent hc') heq
    exact .inl rfl
  · -- the second tag stands behind the first, so each can still be removed without the other
    refine .inr ⟨before ++ (y ++ after'), ?_, ?_⟩
    · exact (Removes.mk y after' hc' hm').append_left before
    · rw [List.append_assoc]
      exact .mk before (y ++ after') hc hm

/-- Of two removals either can be done after the other. -/
theorem diamond {t u v : Text} (hu : Removes t u) (hv : Removes t v) :
    u = v ∨ ∃ w, Removes u w ∧ Removes v w := by
  generalize ht : t = t' at hv
  obtain ⟨before, after, hc, hm⟩ := hu
  obtain ⟨before', after', hc', hm'⟩ := hv
  rcases List.append_eq_append_iff.1 ht with ⟨x, rfl, heq⟩ | ⟨x, rfl, heq⟩
  · rw [List.append_assoc]
    exact join before hc hm hc' hm' heq
  · rw [List.append_assoc]
    rcases join before' hc' hm' hc hm heq with h | ⟨w, hw', hw⟩
    · exact .inl h.symm
    · exact .inr ⟨w, hw, hw'⟩

/-- Every sequence of removals ends. -/
theorem wellFounded : WellFounded fun u t => Removes t u :=
  Subrelation.wf (fun h => h.length_lt) (measure List.length).wf

end Removes

theorem tagFree_iff {t : Text} : TagFree t ↔ ∀ u, ¬ Removes t u := by
  constructor
  · exact fun h u => Removes.not_of_tagFree h
  · rintro h content ⟨before, after, rfl⟩ hc
    by_contra hm
    rw [List.append_assoc] at h
    exact h _ (.mk before after hc (Bool.eq_false_iff.2 hm))

/-- However tags are removed, the text in the end is the one that `strip` gives. -/
theorem eq_strip {t u : Text} (h : ReflTransGen Removes t u) (hu : TagFree u) : u = strip t := by
  have hjoin := Relation.church_rosser (r := Removes) (fun a b c hb hc => ?_) h (strip_reaches t)
  · obtain ⟨w, huw, hsw⟩ := hjoin
    -- nothing can be removed from either end, so both are the text where they join
    have heq : ∀ {v}, TagFree v → ReflTransGen Removes v w → v = w := by
      intro v hv hvw
      rcases hvw.cases_head with heq | ⟨_, hr, -⟩
      · exact heq
      · exact absurd hr (Removes.not_of_tagFree hv)
    rw [heq hu huw, heq (tagFree_strip t) hsw]
  · rcases hb.diamond hc with rfl | ⟨w, hbw, hcw⟩
    · exact ⟨b, .refl, .refl⟩
    · exact ⟨w, .single hbw, .single hcw⟩

/-! ## Texts in parts -/

/-- The parts of a text can be cleaned first. -/
theorem strip_append (a b : Text) : strip (a ++ b) = strip (strip a ++ strip b) := by
  have ha := (strip_reaches a).lift (· ++ b) fun _ _ h => h.append_right b
  have hb := (strip_reaches b).lift (strip a ++ ·) fun _ _ h => h.append_left (strip a)
  exact (eq_strip ((ha.trans hb).trans (strip_reaches _)) (tagFree_strip _)).symm

/-- Around a marker no leftover tag arises. -/
theorem tagFree_append_marker {a b content : Text} (h : Enclosed content)
    (hm : isMarker content = true) :
    TagFree (a ++ (braced content ++ b)) ↔ TagFree a ∧ TagFree b := by
  constructor
  · exact fun ht => ⟨ht.of_infix (List.infix_append [] _ _),
      ht.of_infix ⟨a ++ braced content, [], by simp⟩⟩
  rintro ⟨ha, hb⟩ content' ⟨x, y, heq⟩ hc'
  have hbody := enclosed_of_isContent hc'
  rw [List.append_assoc] at heq
  rcases List.append_eq_append_iff.1 heq with ⟨z, rfl, hz⟩ | ⟨z, rfl, hz⟩
  · -- the tag starts before the marker: it ends there, or it is the marker
    rcases hbody.cut hz with rfl | ⟨w, rfl, -⟩
    · rw [(hbody.braced_inj h hz).1]
      exact hm
    · exact ha content' ⟨x, w, by rw [List.append_assoc]⟩ hc'
  · -- the tag starts where the marker starts or behind it
    rcases h.cut hz with rfl | ⟨w, -, rfl⟩
    · rw [← (h.braced_inj hbody hz).1]
      exact hm
    · exact hb content' ⟨w, y, by rw [List.append_assoc]⟩ hc'

/-- The texts before and behind a marker are cleaned on their own. -/
theorem strip_append_marker {content : Text} (hc : content.all isContent = true)
    (hm : isMarker content = true) (a b : Text) :
    strip (a ++ (braced content ++ b)) = strip a ++ (braced content ++ strip b) := by
  have ha := (strip_reaches a).lift (· ++ (braced content ++ b)) fun _ _ h => h.append_right _
  have hb := (strip_reaches b).lift (fun u => strip a ++ (braced content ++ u)) fun _ _ h =>
    (h.append_left (braced content)).append_left (strip a)
  refine (eq_strip (ha.trans hb) ?_).symm
  exact (tagFree_append_marker (enclosed_of_isContent hc) hm).2 ⟨tagFree_strip a, tagFree_strip b⟩

/-! ## Passes -/

/-- The passes come to an end: after some number of them, at most the length of the text, a
    further one changes nothing. -/
theorem exists_iterate_stripOnce (t : Text) :
    ∃ n ≤ t.length, stripOnce^[n] t = strip t ∧ stripOnce (strip t) = strip t := by
  fun_induction strip t with
  | case1 t h => exact ⟨0, Nat.zero_le _, rfl, h⟩
  | case2 t h ih =>
      obtain ⟨n, hn, hiter, hfix⟩ := ih
      have hlt := stripOnce_length_lt h
      exact ⟨n + 1, by omega, hiter, hfix⟩

/-! ## Order -/

/-- A text is reached by removing tags until none is left exactly if it is the one that `strip`
    gives; removals come to an end and so do the passes; the parts of a text may be cleaned first;
    and a marker stays where it is and keeps the texts around it apart. -/
theorem strip_confluent :
    (∀ t u, ReflTransGen Removes t u ∧ (∀ v, ¬ Removes u v) ↔ u = strip t) ∧
      (WellFounded fun u t => Removes t u) ∧
      (∀ t, ∃ n ≤ t.length, stripOnce^[n] t = strip t ∧ stripOnce (strip t) = strip t) ∧
      (∀ a b, strip (a ++ b) = strip (strip a ++ strip b)) ∧
      ∀ a b content, content.all isContent = true → isMarker content = true →
        strip (a ++ (braced content ++ b)) = strip a ++ (braced content ++ strip b) := by
  refine ⟨fun t u => ⟨?_, ?_⟩, Removes.wellFounded, exists_iterate_stripOnce, strip_append,
    fun a b content hc hm => strip_append_marker hc hm a b⟩
  · rintro ⟨h, hu⟩
    exact eq_strip h (tagFree_iff.2 hu)
  · rintro rfl
    exact ⟨strip_reaches t, tagFree_iff.1 (tagFree_strip t)⟩

/-- The braces around a marker do not make a tag with it, and the tag inside another tag goes
    first. -/
theorem strip_confluent_footer :
    "> footer".toList.all isContent = true ∧ isMarker "> footer".toList = true ∧
      strip ("\x7b\x7bx".toList ++ (braced "> footer".toList ++
        "\x7d\x7d\x7b\x7ba\x7b\x7bb\x7d\x7d\x7d\x7d".toList)) =
          "\x7b\x7bx".toList ++ (braced "> footer".toList ++ "\x7d\x7d".toList) := by
  have hc : "> footer".toList.all isContent = true := by decide
  have hm : isMarker "> footer".toList = true := by decide
  refine ⟨hc, hm, ?_⟩
  rw [strip_confluent.2.2.2.2 _ _ _ hc hm]
  decide +kernel

end PagePress.Cleanup
