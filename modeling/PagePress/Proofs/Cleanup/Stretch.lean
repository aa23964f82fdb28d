/-
  PagePress.Proofs.Cleanup.Stretch

  What cleanup removes after a clean report.

  Markers keep what stands before them and what stands behind them apart, so
  the removal of leftover tags works on each stretch of output between
  markers alone.  After a clean report no stretch holds a reference
  (`Renderer.render_isClean`): what is removed then was written as a tag of no
  known form, or its braces come from text, values and particles
  (`exists_clean_removal`).
-/

import PagePress.Proofs.Cleanup.Confluence
import PagePress.Proofs.Template.Fragment
import PagePress.Template.Render

namespace PagePress

namespace Fragment

/-- The stretches of output between markers, the first one with some text in front. -/
def stretches (pending : Text) : List Fragment → List Text
  | [] => [pending]
  | .marker _ :: fs => pending :: stretches [] fs
  | .literal raw :: fs => stretches (pending ++ raw) fs
  | .value t :: fs => stretches (pending ++ t) fs
  | .form t :: fs => stretches (pending ++ t) fs
  | .reference raw :: fs => stretches (pending ++ raw) fs

/-- Leftover tags stand in the stretches and nowhere else. -/
theorem tagFree_iff_stretches {fs : List Fragment} (h : ∀ f ∈ fs, f.Settled) (pending : Text) :
    Cleanup.TagFree (pending ++ fs.flatMap text) ↔
      ∀ s ∈ stretches pending fs, Cleanup.TagFree s := by
  induction fs generalizing pending with
  | nil => simp [stretches]
  | cons f fs ih =>
      obtain ⟨hf, hfs⟩ := List.forall_mem_cons.1 h
      have hgo := ih hfs
      cases hf with
      | literal | value | form =>
          rw [List.flatMap_cons, ← List.append_assoc]
          exact hgo _
      | marker hbody hm =>
          rw [stretches, List.forall_mem_cons, ← hgo, List.flatMap_cons, text]
          exact Cleanup.tagFree_append_marker hbody hm

end Fragment

namespace Renderer

/-- After a clean report the output is made of text, values, particle forms and markers, without a
    reference that was left in place, and the removal of leftover tags removes nothing exactly if
    it would remove nothing from any stretch of this between markers. -/
theorem render_isClean {r : Renderer} {c : Context} {source : Text}
    (h : (r.render c source).isClean = true) :
    (r.fragments c (.compile source)).flatMap Fragment.text =
        (r.evaluate .verbatim c (.compile source)).text ∧
      (∀ f ∈ r.fragments c (.compile source), f.Settled) ∧
      (Cleanup.strip (r.evaluate .verbatim c (.compile source)).text =
          (r.evaluate .verbatim c (.compile source)).text ↔
        ∀ s ∈ Fragment.stretches [] (r.fragments c (.compile source)), Cleanup.strip s = s) := by
  obtain ⟨htext, hsettled⟩ := r.accounts_evaluate source c
  have hwarnings : (r.evaluate .verbatim c (.compile source)).warnings = [] :=
    List.map_eq_nil_iff.1 (List.isEmpty_iff.1 h)
  have hall := hsettled trivial hwarnings
  refine ⟨htext, hall, ?_⟩
  simp only [Cleanup.strip_eq_self_iff]
  rw [← htext, ← Fragment.tagFree_iff_stretches hall, List.nil_append]

/-- Text with braces in it, a marker and the rest of the braces. -/
theorem render_isClean_marker :
    let r : Renderer := ⟨{}, 0, defaultDepthLimit⟩
    let source := "\x7b\x7bx \x7b\x7b> f\x7d\x7d\x7d\x7d".toList
    (r.render {} source).isClean = true ∧
      (r.fragments {} (.compile source)).flatMap Fragment.text =
          (r.evaluate .verbatim {} (.compile source)).text ∧
        (∀ f ∈ r.fragments {} (.compile source), f.Settled) ∧
        (Cleanup.strip (r.evaluate .verbatim {} (.compile source)).text =
            (r.evaluate .verbatim {} (.compile source)).text ↔
          ∀ s ∈ Fragment.stretches [] (r.fragments {} (.compile source)), Cleanup.strip s = s) := by
  have hclean : (Renderer.render ⟨{}, 0, defaultDepthLimit⟩ {}
      "\x7b\x7bx \x7b\x7b> f\x7d\x7d\x7d\x7d".toList).isClean = true := by decide +kernel
  intro r source
  exact ⟨hclean, render_isClean hclean⟩

/-- A tag of no known form is removed without a report. -/
theorem exists_clean_removal :
    ¬ ∀ (r : Renderer) (c : Context) (source : Text), (r.render c source).isClean = true →
      Cleanup.strip (r.evaluate .verbatim c (.compile source)).text =
        (r.evaluate .verbatim c (.compile source)).text := by
  intro h
  have hclean : (Renderer.render ⟨{}, 0, defaultDepthLimit⟩ {} (braced "a b".toList)).isClean =
      true := by decide +kernel
  have hraw : (Renderer.evaluate ⟨{}, 0, defaultDepthLimit⟩ .verbatim {}
      (.compile (braced "a b".toList))).text = braced "a b".toList := by decide +kernel
  have hstrip : Cleanup.strip (braced "a b".toList) = [] := by decide +kernel
  have heq := h _ _ _ hclean
  rw [hraw, hstrip] at heq
  exact List.cons_ne_nil _ _ heq.symm

end Renderer

end PagePress
