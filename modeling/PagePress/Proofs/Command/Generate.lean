/-
  PagePress.Proofs.Command.Generate

  Generating is rendering followed by judging.

  Both commands read their inputs before they write anything, so that an input
  that cannot be had leaves the files as they are (`Activity.reads_inputs`).  With
  all inputs they write the same page, and the verdict on it is that of judging
  the file, with what the rendering reported among the warnings
  (`Activity.generate_renders_and_judges`).
-/

import PagePress.Proofs.Command.Activity
import PagePress.Proofs.Json.Document

namespace PagePress

/-- What the inputs of a rendering hold. -/
structure RenderInputs where
  source : Text
  context : Context
  renderer : Renderer

/-- The inputs of a rendering, if all of them can be had. -/
def Workspace.renderInputs? (w : Workspace) (moment : Moment) (template : Text)
    (o : RenderOptions) : Option RenderInputs := do
  let source ← w.text? template
  let context ← w.variables? o.vars
  let renderer ← w.renderer? moment o
  return ⟨source, context, renderer⟩

namespace Activity

/-- Reads the inputs of a rendering. -/
def readInputs (moment : Moment) (template : Text) (o : RenderOptions) :
    Activity (StateM Workspace) RenderInputs := do
  let source ← readInput template
  let context ← readVariables o.vars
  let renderer ← readRenderer o moment
  return ⟨source, context, renderer⟩

section

variable {moment : Moment} {w : Workspace} {template : Text} {o : RenderOptions} {α : Type}

theorem reads_inputs (moment : Moment) (w : Workspace) (template : Text) (o : RenderOptions) :
    (readInputs moment template o).Reads w (w.renderInputs? moment template o) :=
  (reads_input w template).bind fun _ =>
    (reads_variables w o.vars).bind fun _ =>
      (reads_renderer w o moment).bind fun _ => .of_gives fun _ => rfl

variable (f : Text → Context → Renderer → Activity (StateM Workspace) α)

theorem bind_inputs (moment : Moment) (template : Text) (o : RenderOptions) :
    (do
      let source ← readInput template
      let context ← readVariables o.vars
      let renderer ← readRenderer o moment
      f source context renderer) =
      readInputs moment template o >>= fun i => f i.source i.context i.renderer := by
  simp only [readInputs, bind_assoc, pure_bind]

/-- What starts by reading inputs that cannot be had fails. -/
theorem fails_of_inputs (h : w.renderInputs? moment template o = none) :
    (do
      let source ← readInput template
      let context ← readVariables o.vars
      let renderer ← readRenderer o moment
      f source context renderer).Fails w := by
  rw [bind_inputs]
  exact ((reads_inputs moment w template o).fails h).bind

/-- What starts by reading inputs goes on with what they hold. -/
theorem on_of_inputs {i : RenderInputs} (h : w.renderInputs? moment template o = some i)
    (p : Printed) :
    (do
      let source ← readInput template
      let context ← readVariables o.vars
      let renderer ← readRenderer o moment
      f source context renderer).on p w = (f i.source i.context i.renderer).on p w := by
  rw [bind_inputs, ((reads_inputs moment w template o).gives i h).on_bind]

end

section

variable {moment : Moment} {w : Workspace} {template : Text} {o : RenderOptions}
  {gate : GateOptions} {i : RenderInputs} {rules : RuleSet}

/-- A document that does not parse is not written. -/
theorem render_fails (hi : w.renderInputs? moment template o = some i)
    (hnone : i.renderer.renderStructured? i.context i.source = none) (output : Option Text) :
    (render moment template o true output).Fails w := by
  intro p
  unfold render
  rw [on_of_inputs _ hi]
  simp only [hnone]
  exact ⟨_, p, rfl⟩

theorem render_on (hi : w.renderInputs? moment template o = some i) (out : Text) :
    (render moment template o false (some out)).on {} w =
      (do
        report (i.renderer.render i.context i.source).diagnostics
        writeFile out (i.renderer.render i.context i.source).text
        return 0 : Activity (StateM Workspace) Nat).on {} w := by
  unfold render
  rw [on_of_inputs _ hi]
  rfl

theorem generate_on (hi : w.renderInputs? moment template o = some i)
    (hrules : w.rules? gate.rules = some rules) (out : Text) :
    (generate moment template o gate (some out)).on {} w =
      (do
        writeFile out (i.renderer.render i.context i.source).text
        giveVerdict gate.asJson (rules.judgeReport (i.renderer.render i.context i.source) gate.type
          i.context moment.now) : Activity (StateM Workspace) Nat).on {} w := by
  unfold generate
  rw [on_of_inputs _ hi, ((reads_rules w gate.rules).gives rules hrules).on_bind]

/-- Without a rule set nothing is generated. -/
theorem generate_fails (hi : w.renderInputs? moment template o = some i)
    (hnone : w.rules? gate.rules = none) (output : Option Text) :
    (generate moment template o gate output).Fails w := by
  intro p
  unfold generate
  rw [on_of_inputs _ hi]
  exact ((reads_rules w gate.rules).fails hnone).bind p

theorem lint_on {content page vars : Text} {c : Context} (hpage : w.read content = .ok page)
    (hvars : w.variables? vars = some c) (hrules : w.rules? gate.rules = some rules) :
    (lint moment content vars gate).on {} w =
      (giveVerdict gate.asJson (rules.judge page gate.type c moment.now)).on {} w := by
  have htext : w.text? content = some page := by rw [Workspace.text?, hpage]; rfl
  unfold lint
  rw [((reads_input w content).gives page htext).on_bind,
    ((reads_variables w vars).gives c hvars).on_bind,
    ((reads_rules w gate.rules).gives rules hrules).on_bind]

end

/-- Rendering and generating fail, and leave the files as they are, when an input cannot be had or
    a document does not parse.  Otherwise both leave the same files, after the same failure to write
    the page or with the page in its file.  Then the verdict of generating is the one of judging
    that text with the same variables and rules, with the reports of the rendering after its
    warnings, and both end with the same exit code. -/
theorem generate_renders_and_judges (moment : Moment) (w : Workspace) (template : Text)
    (o : RenderOptions) (gate : GateOptions) :
    (w.renderInputs? moment template o = none → ∀ structured output,
        (render moment template o structured output).Fails w ∧
          (generate moment template o gate output).Fails w) ∧
      (w.rules? gate.rules = none → ∀ output, (generate moment template o gate output).Fails w) ∧
      ∀ i, w.renderInputs? moment template o = some i →
        (i.renderer.renderStructured? i.context i.source = none →
          ∀ output, (render moment template o true output).Fails w) ∧
        ∀ rules, w.rules? gate.rules = some rules → ∀ out,
          let page := i.renderer.render i.context i.source
          let rendered := (render moment template o false (some out)).on {} w
          let generated := (generate moment template o gate (some out)).on {} w
          generated.2 = rendered.2 ∧
            ((∃ failure, rendered.1.1 = .error failure ∧ generated.1.1 = .error failure) ∨
              (rendered.1.1 = .ok 0 ∧ rendered.2.read out = .ok page.text ∧
                ∀ w' content, w'.read content = .ok page.text →
                  w'.variables? o.vars = some i.context → w'.rules? gate.rules = some rules →
                    let v := rules.judge page.text gate.type i.context moment.now
                    let v' := { v with warnings := v.warnings ++ page.diagnostics }
                    (lint moment content o.vars gate).on {} w' =
                        ((.ok v.exit, v.printed gate.asJson), w') ∧
                      generated = ((.ok v.exit, v'.printed gate.asJson), rendered.2))) := by
  refine ⟨fun hnone structured output => ⟨?_, ?_⟩, fun hnone output => ?_,
    fun i hi => ⟨fun hnone output => ?_, fun rules hrules out => ?_⟩⟩
  · exact fails_of_inputs _ hnone
  · exact fails_of_inputs _ hnone
  · cases hi : w.renderInputs? moment template o with
    | none => exact fails_of_inputs _ hi
    | some i => exact generate_fails hi hnone output
  · exact render_fails hi hnone output
  · intro page rendered generated
    obtain ⟨result, w', hwrite, hread⟩ := writes_file w out page.text
    cases result with
    | error failure =>
        have hrendered : ∃ q, rendered = ((.error failure, q), w') := by
          rw [show rendered = _ from render_on hi out, on_bind, on_report]
          simp only
          rw [on_bind, hwrite]
          exact ⟨_, rfl⟩
        have hgenerated : generated = ((.error failure, {}), w') := by
          rw [show generated = _ from generate_on hi hrules out, on_bind, hwrite]
        obtain ⟨q, hrendered⟩ := hrendered
        rw [hrendered, hgenerated]
        exact ⟨rfl, .inl ⟨failure, rfl, rfl⟩⟩
    | ok u =>
        have hrendered : ∃ q, rendered = ((.ok 0, q), w') := by
          rw [show rendered = _ from render_on hi out, on_bind, on_report]
          simp only
          rw [on_bind, hwrite]
          exact ⟨_, rfl⟩
        have hgenerated : generated = _ := generate_on hi hrules out
        rw [on_bind, hwrite] at hgenerated
        simp only [giveVerdict_on] at hgenerated
        obtain ⟨q, hrendered⟩ := hrendered
        rw [hrendered, hgenerated]
        refine ⟨rfl, .inr ⟨rfl, hread rfl, fun w'' content hpage hvars hrules' => ⟨?_, rfl⟩⟩⟩
        rw [lint_on hpage hvars hrules', giveVerdict_on]

/-- A page of a type without rules is written and judged, and blocked both times. -/
theorem generate_renders_and_judges_note :
    let w := (Workspace.empty.add ['t'] (some (braced ['a']))).add ['v']
      (some "\x7b\"a\":\"x\"\x7d".toList)
    let moment : Moment := ⟨⟨0, 0⟩, 0⟩
    let o : RenderOptions := ⟨['v'], none, none, none⟩
    let gate : GateOptions := ⟨"note".toList, none, false⟩
    let i : RenderInputs :=
      ⟨braced ['a'], ⟨[(['a'], .text ['x'])], []⟩, ⟨Pattern.builtin, 0, defaultDepthLimit⟩⟩
    let page := i.renderer.render i.context i.source
    let rendered := (render moment ['t'] o false (some ['p'])).on {} w
    let generated := (generate moment ['t'] o gate (some ['p'])).on {} w
    w.renderInputs? moment ['t'] o = some i ∧ w.rules? gate.rules = some RuleSet.builtin ∧
      rendered.2.read ['p'] = .ok page.text ∧ generated.2 = rendered.2 ∧
        generated.1.1 = .ok 1 ∧ ((lint moment ['p'] ['v'] gate).on {} rendered.2).1.1 = .ok 1 := by
  intro w moment o gate i page rendered generated
  have hsource : w.text? ['t'] = some i.source := rfl
  have hcontext : w.variables? ['v'] = some i.context := by
    have htext : w.text? ['v'] = some "\x7b\"a\":\"x\"\x7d".toList := rfl
    have hjson : Json.read? "\x7b\"a\":\"x\"\x7d".toList =
        some (.object [(['a'], .string ['x'])]) :=
      Json.read?_write (v := .object [(['a'], .string ['x'])]) rfl (by decide)
    rw [Workspace.variables?, htext, Option.bind_some, hjson]
    rfl
  have hi : w.renderInputs? moment ['t'] o = some i := by
    rw [Workspace.renderInputs?, hsource, hcontext]
    rfl
  have hrules : w.rules? gate.rules = some RuleSet.builtin := rfl
  obtain ⟨hfiles, hpage⟩ :=
    ((generate_renders_and_judges moment w ['t'] o gate).2.2 i hi).2 RuleSet.builtin hrules ['p']
  have hrendered : rendered = ((.ok 0, ⟨[], _⟩),
      w.put [['p'], "work".toList] (some page.text)) := render_on hi ['p']
  obtain ⟨failure, hfailure, -⟩ | ⟨-, hread, hjudged⟩ := hpage
  · rw [show (render moment ['t'] o false (some ['p'])).on {} w = _ from hrendered] at hfailure
    cases hfailure
  · have hcontext' : rendered.2.variables? ['v'] = some i.context := by
      rw [hrendered]
      exact hcontext
    obtain ⟨hlint, hgenerated⟩ := hjudged rendered.2 ['p'] hread hcontext' rfl
    refine ⟨hi, hrules, hread, hfiles, ?_, ?_⟩
    · rw [show generated = _ from hgenerated]
      rfl
    · rw [show (lint moment ['p'] ['v'] gate).on {} rendered.2 = _ from hlint]
      rfl

end Activity

end PagePress
