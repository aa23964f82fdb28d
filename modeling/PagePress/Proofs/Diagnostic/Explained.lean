/-
  PagePress.Proofs.Diagnostic.Explained

  What the catalog says about reported diagnostics.

  A subsystem reports with codes that have its number in front
  (`Subsystem.codePrefix`).  A diagnostic is explained as a report of a
  subsystem if its code leads to an entry of the catalog for that subsystem
  and it has the title of the entry (`Diagnostic.Explained`).  Whatever is
  reported comes from a cause, and causes are explained case by case: those of
  warnings while rendering, findings about pages and errors of rule sets.

  One code has two titles.  A block tag without a partner is reported as
  `Unbalanced block tag`, which the catalog spells with capitals
  (`Template.exists_title_not_catalogued`).
-/

import PagePress.Diagnostic.Catalog
import PagePress.Proofs.Gate.Verdict
import PagePress.Proofs.Template.Mention
import PagePress.Rules.Load

namespace PagePress

/-! ## Subsystems -/

/-- A part of the program that reports diagnostics. -/
inductive Subsystem where
  | template
  | lint
  | config
  deriving DecidableEq

namespace Subsystem

/-- The name in the catalog. -/
def name : Subsystem → Text
  | template => "template"
  | lint => "lint"
  | config => "config"

/-- What the codes of a subsystem start with. -/
def codePrefix : Subsystem → Text
  | template => "L-1-"
  | lint => "L-2-"
  | config => "L-3-"

/-- The severities of what a subsystem reports. -/
def severities : Subsystem → List Severity
  | template => [.warning]
  | lint => [.error, .warning]
  | config => [.error]

theorem name_injective : Function.Injective name := by
  intro s t h
  cases s <;> cases t <;> first | rfl | exact absurd h (of_decide_eq_false rfl)

end Subsystem

namespace Catalog

/-- In the catalog a code tells the subsystem. -/
theorem subsystem_iff (s : Subsystem) :
    ∀ e ∈ entries, s.codePrefix <+: e.code ↔ e.subsystem = s.name := by
  cases s <;> decide

theorem mem_of_find? {code : Text} {e : CatalogEntry} (h : find? code = some e) : e ∈ entries :=
  List.mem_of_find?_eq_some h

theorem code_of_find? {code : Text} {e : CatalogEntry} (h : find? code = some e) :
    e.code = code := by
  have hcode := List.find?_some h
  exact eq_of_beq hcode

end Catalog

/-! ## Explained diagnostics -/

namespace Warning

/-- The code of reports on block tags without a partner. -/
def blockCode : Text := "L-1-6"

/-- The title of these reports. -/
def blockTitle : Text := "Unbalanced block tag"

end Warning

namespace Diagnostic

/-- The entry that explains a diagnostic as a report of a subsystem. -/
structure ExplainedBy (d : Diagnostic) (s : Subsystem) (e : CatalogEntry) : Prop where
  code_eq : d.code = some e.code
  found : Catalog.find? e.code = some e
  subsystem_eq : e.subsystem = s.name
  prefix_iff : ∀ t : Subsystem, t.codePrefix <+: e.code ↔ t = s
  severity_mem : d.severity ∈ s.severities
  title_eq : e.code ≠ Warning.blockCode → d.title = e.title
  blockTitle_eq : e.code = Warning.blockCode → d.title = Warning.blockTitle

/-- The catalog explains a diagnostic as a report of a subsystem. -/
def Explained (d : Diagnostic) (s : Subsystem) : Prop := ∃ e, d.ExplainedBy s e

variable {d : Diagnostic} {s : Subsystem}

theorem Explained.of_code {code : Text} {e : CatalogEntry} (hcode : d.code = some code)
    (hfound : Catalog.find? code = some e) (hsubsystem : e.subsystem = s.name)
    (hseverity : d.severity ∈ s.severities)
    (htitle : d.title = if code = Warning.blockCode then Warning.blockTitle else e.title) :
    d.Explained s := by
  obtain rfl := Catalog.code_of_find? hfound
  refine ⟨e, ⟨hcode, hfound, hsubsystem, fun t => ?_, hseverity, fun h => ?_, fun h => ?_⟩⟩
  · rw [Catalog.subsystem_iff t e (Catalog.mem_of_find? hfound), hsubsystem]
    exact ⟨fun h => Subsystem.name_injective h.symm, fun h => h ▸ rfl⟩
  · rw [htitle, if_neg h]
  · rw [htitle, if_pos h]

end Diagnostic

open Diagnostic (Explained)

theorem Warning.explained (w : Warning) : w.toDiagnostic.Explained .template := by
  cases w <;> exact .of_code rfl rfl rfl (List.mem_singleton.2 rfl) rfl

theorem Finding.explained (f : Finding) : f.toDiagnostic.Explained .lint := by
  cases f <;> exact .of_code rfl rfl rfl (of_decide_eq_true rfl) rfl

theorem RuleError.explained (e : RuleError) : e.toDiagnostic.Explained .config :=
  .of_code rfl rfl rfl (List.mem_singleton.2 rfl) rfl

/-! ## Warnings of an evaluation -/

namespace Output

/-- Every warning is of some kind. -/
def Warns (P : Warning → Prop) (o : Output) : Prop := ∀ w ∈ o.warnings, P w

variable {P : Warning → Prop}

theorem warns_empty : empty.Warns P := nofun

theorem warns_ofText (t : Text) : (ofText t).Warns P := nofun

theorem warns_warned {t : Text} {w : Warning} : (warned t w).Warns P ↔ P w :=
  List.forall_mem_singleton

theorem warns_append {a b : Output} : (a ++ b).Warns P ↔ a.Warns P ∧ b.Warns P :=
  List.forall_mem_append

theorem warns_concat {os : List Output} (h : ∀ o ∈ os, o.Warns P) : (concat os).Warns P := by
  induction os with
  | nil => exact warns_empty
  | cons o os ih =>
      obtain ⟨ho, hos⟩ := List.forall_mem_cons.1 h
      exact warns_append.2 ⟨ho, ih hos⟩

/-- No block tag without a partner is reported. -/
def Partnered (o : Output) : Prop := o.Warns fun w => w.code ≠ Warning.blockCode

end Output

/-- No pattern of a library is expanded with a report on a block tag. -/
def ExpandsPartnered (l : PatternLibrary) (expand? : Option Expansion) : Prop :=
  ∀ expand, expand? = some expand → ∀ source ∈ l.texts, ∀ c, (expand source c).Partnered

namespace Renderer

variable {r : Renderer} {P : Warning → Prop} {expand? : Option Expansion} {escape : Escape}

mutual

theorem evalNode_warns (hleaf : ∀ c raw content, (r.evalLeaf expand? escape c raw content).Warns P)
    (n : Node) (c : Context) : (r.evalNode expand? escape c n).Warns P := by
  cases n with
  | leaf number span raw content =>
      rw [evalNode]
      exact hleaf c raw content
  | when number span condition body =>
      rw [evalNode]
      split
      · exact evalNodes_warns hleaf body c
      · exact Output.warns_empty
  | choice number span condition yes no =>
      rw [evalNode]
      split
      · exact evalNodes_warns hleaf yes c
      · exact evalNodes_warns hleaf no c
  | each number span path body =>
      rw [evalNode]
      refine Output.warns_concat fun o ho => ?_
      obtain ⟨round, -, rfl⟩ := List.mem_map.1 ho
      exact evalNodes_warns hleaf body round

/-- What holds of the warnings of all leaves holds of those of a tree. -/
theorem evalNodes_warns (hleaf : ∀ c raw content, (r.evalLeaf expand? escape c raw content).Warns P)
    (ns : List Node) (c : Context) : (r.evalNodes expand? escape c ns).Warns P := by
  cases ns with
  | nil => exact Output.warns_empty
  | cons n ns =>
      rw [evalNodes]
      exact Output.warns_append.2 ⟨evalNode_warns hleaf n c, evalNodes_warns hleaf ns c⟩

end

/-- A leaf itself reports on no block tag. -/
theorem evalLeaf_partnered (hexpand : ExpandsPartnered r.library expand?) (c : Context)
    (raw : Text) (content : Leaf) : (r.evalLeaf expand? escape c raw content).Partnered := by
  cases content with
  | literal => exact Output.warns_ofText raw
  | «variable» path =>
      rw [evalLeaf]
      cases c.textOf? path with
      | none => exact Output.warns_warned.2 (of_decide_eq_false rfl)
      | some t => exact Output.warns_ofText _
  | particle word spec =>
      rw [evalLeaf, evalParticle]
      cases c.textOf? word with
      | none => exact Output.warns_warned.2 (of_decide_eq_false rfl)
      | some t =>
          simp only
          cases Particle.parse? spec with
          | none => exact Output.warns_warned.2 (of_decide_eq_false rfl)
          | some p => exact Output.warns_ofText _
  | pattern category sect word =>
      rw [evalLeaf, evalPattern]
      cases hselect : r.library.select? r.seed category sect (word.bind c.textOf?) with
      | none => exact Output.warns_warned.2 (of_decide_eq_false rfl)
      | some source =>
          cases expand? with
          | none => exact Output.warns_warned.2 (of_decide_eq_false rfl)
          | some expand =>
              exact hexpand expand rfl source (PatternLibrary.select?_mem_texts hselect) c
  | partialMarker name => exact Output.warns_ofText raw
  | comment remark => exact Output.warns_empty

theorem evalTemplate_partnered (hexpand : ExpandsPartnered r.library expand?) {t : Template}
    (ht : t.warnings = []) (c : Context) : (r.evalTemplate expand? escape c t).Partnered := by
  refine Output.warns_append.2 ⟨?_, evalNodes_warns (evalLeaf_partnered hexpand) t.nodes c⟩
  show ∀ w ∈ t.warnings, _
  rw [ht]
  nofun

/-- Where no pattern has a block tag without a partner, expanding patterns reports none. -/
theorem expandsPartnered (r : Renderer)
    (htexts : ∀ t ∈ r.library.texts, (Template.compile t).warnings = []) (levels : Nat) :
    ExpandsPartnered r.library (r.expansion levels) := by
  induction levels with
  | zero => exact fun _ hnone => absurd hnone.symm (Option.some_ne_none _)
  | succ levels ih =>
      rintro _ ⟨⟩ source hsource c
      exact evalTemplate_partnered ih (htexts source hsource) c

end Renderer

/-! ## Reports -/

namespace Renderer

theorem render_explained (r : Renderer) (c : Context) (source : Text) :
    ∀ d ∈ (r.render c source).diagnostics, d.Explained .template := by
  intro d hd
  obtain ⟨w, -, rfl⟩ := List.mem_map.1 hd
  exact w.explained

/-- If all block tags of a template and of the patterns have partners, every report has the title in
    the catalog. -/
theorem render_title_eq (r : Renderer) (c : Context) {source : Text}
    (h : ∀ t ∈ source :: r.library.texts, (Template.compile t).warnings = []) :
    ∀ d ∈ (r.render c source).diagnostics, ∀ e, d.ExplainedBy .template e → d.title = e.title := by
  intro d hd e he
  obtain ⟨hsource, htexts⟩ := List.forall_mem_cons.1 h
  obtain ⟨w, hw, rfl⟩ := List.mem_map.1 hd
  have hcode : e.code = w.code := (Option.some.inj he.code_eq).symm
  have hpartnered : (r.evaluate .verbatim c (.compile source)).Partnered :=
    evalTemplate_partnered (r.expandsPartnered htexts r.depthLimit) hsource c
  exact he.title_eq (hcode ▸ hpartnered w hw)

end Renderer

theorem Verdict.select_explained (severity : Severity) (fs : List Finding) :
    ∀ d ∈ select severity fs, d.Explained .lint := by
  intro d hd
  obtain ⟨f, -, rfl⟩ := List.mem_map.1 hd
  exact f.explained

theorem RuleSet.judge_explained (r : RuleSet) (content type : Text) (c : Context) (now : Instant) :
    let v := r.judge content type c now
    (∀ d ∈ v.errors, d.Explained .lint) ∧ ∀ d ∈ v.warnings, d.Explained .lint := by
  intro v
  cases ht : r.typeRules? type with
  | none =>
      rw [show v = _ from judge_unknown ht content c now]
      exact ⟨List.forall_mem_singleton.2 (Finding.explained _), nofun⟩
  | some t =>
      rw [show v = _ from judge_known ht content c now]
      exact ⟨Verdict.select_explained _ _, Verdict.select_explained _ _⟩

/-- The catalog explains whatever is reported: while a template is read or rendered as a warning of
    the rendering, about a page as a finding, and where a rule set cannot be had as an error of the
    configuration.  In the verdict on a rendered page the reports of the rendering join the
    warnings.  A report on a block tag has a title of its own; where all block tags have partners,
    every report has the title in the catalog. -/
theorem reports_explained (r : Renderer) (rules : RuleSet) (c : Context)
    (source content type : Text) (now : Instant) :
    let page := r.render c source
    let v := rules.judge content type c now
    let w := rules.judgeReport page type c now
    (∀ x ∈ (Template.compile source).warnings, x.toDiagnostic.Explained .template) ∧
      (∀ d ∈ page.diagnostics, d.Explained .template) ∧
        (∀ d ∈ v.errors ++ v.warnings, d.Explained .lint) ∧
          (∀ d ∈ w.errors, d.Explained .lint) ∧
            (∀ d ∈ w.warnings, d.Explained .lint ∨
              d.Explained .template ∧ d ∈ page.diagnostics) ∧
              (∀ e : RuleError, e.toDiagnostic.Explained .config) ∧
                ((∀ t ∈ source :: r.library.texts, (Template.compile t).warnings = []) →
                  ∀ d ∈ page.diagnostics, ∀ e, d.ExplainedBy .template e → d.title = e.title) := by
  intro page v w
  have hpage := r.render_explained c source
  obtain ⟨herrors, hwarnings⟩ := rules.judge_explained content type c now
  obtain ⟨herrors', hwarnings'⟩ := rules.judge_explained page.text type c now
  refine ⟨fun x _ => x.explained, hpage, List.forall_mem_append.2 ⟨herrors, hwarnings⟩, herrors',
    fun d hd => ?_, RuleError.explained, r.render_title_eq c⟩
  rcases List.mem_append.1 hd with hd | hd
  · exact .inl (hwarnings' d hd)
  · exact .inr ⟨hpage d hd, hd⟩

/-- A variable without a value, in a template without block tags. -/
theorem reports_explained_unresolved :
    let r : Renderer := ⟨⟨[], []⟩, 0, 0⟩
    let source := braced ['x']
    let d := (Warning.unresolvedVariable ⟨[['x']], rfl⟩).toDiagnostic
    (∀ t ∈ source :: r.library.texts, (Template.compile t).warnings = []) ∧
      (r.render .empty source).diagnostics = [d] ∧ d.Explained .template ∧
        ∀ e, d.ExplainedBy .template e → d.title = e.title := by
  have hwarnings : (Template.compile (braced ['x'])).warnings = [] := by decide +kernel
  have houtput : (Renderer.evaluate ⟨⟨[], []⟩, 0, 0⟩ .verbatim .empty
      (.compile (braced ['x']))).warnings = [.unresolvedVariable ⟨[['x']], rfl⟩] := by decide +kernel
  intro r source d
  have hpartners : ∀ t ∈ source :: r.library.texts, (Template.compile t).warnings = [] := by
    intro t ht
    obtain rfl := List.mem_singleton.1 ht
    exact hwarnings
  have hreport : (r.render .empty source).diagnostics = [d] :=
    congrArg (List.map Warning.toDiagnostic) houtput
  have hd : d ∈ (r.render .empty source).diagnostics := by
    rw [hreport]
    exact List.mem_singleton.2 rfl
  obtain ⟨-, hpage, -, -, -, -, htitle⟩ :=
    reports_explained r RuleSet.builtin .empty source [] [] ⟨0, 0⟩
  exact ⟨hpartners, hreport, hpage d hd, htitle hpartners d hd⟩

/-- A closing tag without a block is reported under a title that is not the one in the catalog. -/
theorem Template.exists_title_not_catalogued :
    ∃ source, ∃ w ∈ (Template.compile source).warnings, ∃ e,
      w.toDiagnostic.code = some e.code ∧ Catalog.find? e.code = some e ∧
        w.toDiagnostic.title ≠ e.title := by
  have hwarnings : (Template.compile (braced "/if".toList)).warnings =
      [.neverOpened (braced "/if".toList) 0] := by decide +kernel
  refine ⟨braced "/if".toList, .neverOpened (braced "/if".toList) 0, ?_, ?_⟩
  · rw [hwarnings]
    exact List.mem_singleton.2 rfl
  · have hfound : Catalog.find? Warning.blockCode = some Catalog.entries[5] := rfl
    exact ⟨Catalog.entries[5], rfl, hfound, of_decide_eq_false rfl⟩

end PagePress
