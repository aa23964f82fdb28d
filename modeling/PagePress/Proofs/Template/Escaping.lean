/-
  PagePress.Proofs.Template.Escaping

  What escaping does to an evaluation.

  A template is evaluated to the same warnings whether the substituted text is
  escaped or not.  If nothing in the template itself needs an escape, the
  escaped evaluation gives the text of the plain one with escapes
  (`Renderer.evaluate_json`): each value, particle and pattern is escaped once,
  however deep the patterns in it are nested.
-/

import PagePress.Proofs.Json.Quoted
import PagePress.Proofs.Template.Comparison
import PagePress.Proofs.Template.Numbering

namespace PagePress

open Node (preorderAll)

/-- The text of a template at a span is made of characters of the template. -/
theorem Span.Holds.subset {span : Span} {source raw : Text} (h : span.Holds source raw) :
    raw ⊆ source := by
  obtain ⟨front, back, rfl, -, -⟩ := h
  intro d hd
  exact List.mem_append_right front (List.mem_append_left back hd)

/-- The first output is the second one escaped, as far as the text around what is substituted needs
    no escapes, and has the same warnings in any case. -/
structure Output.Escaped (plain : Prop) (o o' : Output) : Prop where
  warnings : o.warnings = o'.warnings
  text : plain → o.text = Json.escape o'.text

namespace Output.Escaped

variable {plain : Prop}

theorem congruence : Congruence (Escaped plain) where
  own _ := ⟨rfl, fun _ => rfl⟩
  append h h' := by
    refine ⟨?_, fun hplain => ?_⟩
    · rw [warnings_append, warnings_append, h.warnings, h'.warnings]
    · rw [text_append, text_append, h.text hplain, h'.text hplain, Json.escape_append]

/-- Text that stands in both outputs as it was written. -/
theorem written {raw : Text} (h : plain → ∀ d ∈ raw, Json.isPlain d = true)
    (ws : List Warning) : Escaped plain ⟨raw, ws⟩ ⟨raw, ws⟩ :=
  ⟨rfl, fun hplain => (Json.escape_plain (h hplain)).symm⟩

/-- Text that is substituted. -/
theorem substituted (t : Text) (ws : List Warning) : Escaped plain ⟨Json.escape t, ws⟩ ⟨t, ws⟩ :=
  ⟨rfl, fun _ => rfl⟩

end Output.Escaped

namespace Renderer

open Output (Escaped)

theorem escaped_leaf (r : Renderer) (expand? : Option Expansion) {plain : Prop} {raw : Text}
    (hraw : plain → ∀ d ∈ raw, Json.isPlain d = true) (content : Leaf) (c : Context) :
    Escaped plain (r.evalLeaf expand? .json c raw content)
      (r.evalLeaf expand? .verbatim c raw content) := by
  cases content with
  | literal => exact .written hraw []
  | «variable» path =>
      rw [evalLeaf, evalLeaf]
      cases c.textOf? path with
      | none => exact .written hraw _
      | some t => exact .substituted t []
  | particle word spec =>
      rw [evalLeaf, evalLeaf, evalParticle, evalParticle]
      cases c.textOf? word with
      | none => exact .written hraw _
      | some t =>
          simp only
          cases Particle.parse? spec with
          | none => exact .substituted [] _
          | some p => exact .substituted (p.formFor t) []
  | pattern category sect word =>
      rw [evalLeaf, evalLeaf, evalPattern, evalPattern]
      cases r.library.select? r.seed category sect (word.bind c.textOf?) with
      | none => exact .written hraw _
      | some source =>
          -- the expansion itself is the same in both, and is escaped as a whole
          cases expand? with
          | none => exact .substituted [] _
          | some expand => exact .substituted (expand source c).text (expand source c).warnings
  | partialMarker name => exact .written hraw []
  | comment remark => exact .substituted [] []

theorem escaped_evaluate (r : Renderer) (c : Context) (source : Text) :
    Escaped (∀ d ∈ source, Json.isPlain d = true) (r.evaluate .json c (.compile source))
      (r.evaluate .verbatim c (.compile source)) := by
  apply evalTemplate_related Escaped.congruence
  intro number span raw content hmem c
  apply escaped_leaf
  -- what is left in place in the output comes from the template
  intro hplain d hd
  have hraw : raw ⊆ source := (Template.holds_of_leaf hmem).subset
  exact hplain d (hraw hd)

/-- What is reported does not depend on the way text is escaped. -/
theorem warnings_evaluate (r : Renderer) (escape : Escape) (c : Context) (source : Text) :
    (r.evaluate escape c (.compile source)).warnings =
      (r.evaluate .verbatim c (.compile source)).warnings := by
  cases escape with
  | verbatim => rfl
  | json => exact (r.escaped_evaluate c source).warnings

/-- A template without quotation marks, backslashes and control characters is evaluated to the same
    text for a JSON string as for a page, but escaped; the warnings are the same for every
    template. -/
theorem evaluate_json (r : Renderer) (c : Context) (source : Text) :
    ((∀ d ∈ source, d ≠ '"' ∧ d ≠ '\\' ∧ 0x20 ≤ d.toNat) →
        (r.evaluate .json c (.compile source)).text =
          Json.escape (r.evaluate .verbatim c (.compile source)).text) ∧
      (r.evaluate .json c (.compile source)).warnings =
        (r.evaluate .verbatim c (.compile source)).warnings := by
  refine ⟨fun hplain => ?_, r.warnings_evaluate .json c source⟩
  apply (r.escaped_evaluate c source).text
  intro d hd
  exact Json.isPlain_iff.2 (hplain d hd)

/-- A quotation mark two patterns deep is escaped once. -/
theorem evaluate_json_nested :
    let library : PatternLibrary :=
      ⟨[], [(['a'], [(['b'], [braced "pattern a c".toList]), (['c'], [['"']])])]⟩
    let r : Renderer := ⟨library, 0, defaultDepthLimit⟩
    let source := braced "pattern a b".toList
    (∀ d ∈ source, d ≠ '"' ∧ d ≠ '\\' ∧ 0x20 ≤ d.toNat) ∧
      (r.evaluate .verbatim {} (.compile source)).text = ['"'] ∧
        (r.evaluate .json {} (.compile source)).text = Json.escape ['"'] := by
  have hall : (braced "pattern a b".toList).all Json.isPlain = true := by decide
  have hplain : ∀ d ∈ braced "pattern a b".toList, d ≠ '"' ∧ d ≠ '\\' ∧ 0x20 ≤ d.toNat :=
    fun d hd => Json.isPlain_iff.1 (List.all_eq_true.1 hall d hd)
  have htext : (Renderer.evaluate
      ⟨⟨[], [(['a'], [(['b'], [braced "pattern a c".toList]), (['c'], [['"']])])]⟩, 0,
        defaultDepthLimit⟩
      .verbatim {} (.compile (braced "pattern a b".toList))).text = ['"'] := by decide +kernel
  intro library r source
  have hescaped := (r.evaluate_json {} source).1 hplain
  refine ⟨hplain, htext, ?_⟩
  rw [hescaped]
  exact congrArg Json.escape htext

end Renderer

end PagePress
