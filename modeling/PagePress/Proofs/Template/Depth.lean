/-
  PagePress.Proofs.Template.Depth

  The limit on the nesting of patterns.

  `Renderer.Evaluates` gives the rules of evaluation with the depth counted
  from the top and no measure in sight.  Every evaluation comes to an end,
  whatever the patterns refer to, and its output is that of
  `Renderer.evaluateNodes` (`Renderer.evaluates_iff`).  A greater limit changes
  nothing unless a pattern was cut off, and cutting one off is reported
  (`Renderer.limit_only_cuts`).
-/

import PagePress.Proofs.Template.Continuation
import PagePress.Proofs.Template.Escaping
import PagePress.Template.Render

namespace PagePress

/-- Whether a leaf is a reference to a pattern. -/
def Leaf.isPattern : Leaf → Bool
  | .pattern .. => true
  | _ => false

/-! ## Outputs without a cut -/

namespace Output

/-- No pattern is reported to be nested too deep. -/
def Uncut (o : Output) : Prop := ∀ w ∈ o.warnings, w.code ≠ "L-1-5".toList

theorem uncut_append {a b : Output} : (a ++ b).Uncut ↔ a.Uncut ∧ b.Uncut := by
  unfold Uncut
  rw [warnings_append, List.forall_mem_append]

theorem not_uncut_nestedTooDeep (t raw : Text) (limit : Nat) :
    ¬ (warned t (.nestedTooDeep raw limit)).Uncut := by
  intro h
  exact h _ (List.mem_singleton_self _) rfl

theorem uncut_iff {o : Output} : o.Uncut ↔ "L-1-5".toList ∉ o.warnings.map Warning.code := by
  unfold Uncut
  rw [List.mem_map, not_exists]
  simp only [not_and]

/-- Unless the first output has a cut, the second is the same. -/
def SameUncut (o o' : Output) : Prop := o.Uncut → o' = o

theorem congruence_sameUncut : Congruence SameUncut where
  own _ _ := rfl
  append h h' huncut := by
    obtain ⟨hleft, hright⟩ := uncut_append.1 huncut
    rw [h hleft, h' hright]

end Output

open Output (SameUncut congruence_sameUncut)

/-! ## A greater limit -/

/-- The second way to expand patterns, if the first one has no cut, gives the same. -/
inductive Deeper : Option Expansion → Option Expansion → Prop where
  | none (expand'? : Option Expansion) : Deeper none expand'?
  | some {expand expand' : Expansion}
      (h : ∀ source c, SameUncut (expand source c) (expand' source c)) :
      Deeper (some expand) (some expand')

namespace Renderer

/-- The same settings with another limit on nesting. -/
def withLimit (r : Renderer) (limit : Nat) : Renderer := { r with depthLimit := limit }

section

variable {r : Renderer} {limit : Nat} {expand? expand'? : Option Expansion} {escape : Escape}

theorem sameUncut_leaf (h : Deeper expand? expand'?) (c : Context) (raw : Text) (content : Leaf) :
    SameUncut (r.evalLeaf expand? escape c raw content)
      ((r.withLimit limit).evalLeaf expand'? escape c raw content) := by
  cases content with
  | pattern category sect word =>
      rw [evalLeaf, evalLeaf, evalPattern, evalPattern]
      have hselect : (r.withLimit limit).library.select? (r.withLimit limit).seed category sect
          (word.bind c.textOf?) = r.library.select? r.seed category sect (word.bind c.textOf?) := rfl
      rw [hselect]
      cases r.library.select? r.seed category sect (word.bind c.textOf?) with
      | none => exact fun _ => rfl
      | some source =>
          cases h with
          | none => exact fun huncut => absurd huncut (Output.not_uncut_nestedTooDeep _ _ _)
          | some h =>
              intro huncut
              have hsame := h source c huncut
              simp only [hsame]
  | _ => exact fun _ => rfl

theorem sameUncut_nodes (h : Deeper expand? expand'?) (ns : List Node) (c : Context) :
    SameUncut (r.evalNodes expand? escape c ns)
      ((r.withLimit limit).evalNodes expand'? escape c ns) :=
  evalNodes_related congruence_sameUncut ns
    (fun _ _ raw content _ c => sameUncut_leaf h c raw content) c

theorem sameUncut_template (h : Deeper expand? expand'?) (t : Template) (c : Context) :
    SameUncut (r.evalTemplate expand? escape c t)
      ((r.withLimit limit).evalTemplate expand'? escape c t) :=
  evalTemplate_related congruence_sameUncut t
    (fun _ _ raw content _ c => sameUncut_leaf h c raw content) c

end

theorem deeper_expansion (r : Renderer) (limit : Nat) {levels levels' : Nat}
    (h : levels ≤ levels') :
    Deeper (r.expansion levels) ((r.withLimit limit).expansion levels') := by
  induction levels generalizing levels' with
  | zero => exact .none _
  | succ levels ih =>
      cases levels' with
      | zero => exact absurd h (Nat.not_succ_le_zero levels)
      | succ levels' =>
          have hinside := ih (Nat.le_of_succ_le_succ h)
          exact .some fun source c => sameUncut_template hinside _ c

/-! ## Evaluation by rules -/

/-- The rules of evaluation at some depth of nesting: a reference to a pattern is cut off at the
    limit, and otherwise the text that was chosen is evaluated one level deeper. -/
inductive Evaluates (r : Renderer) : Nat → Escape → Context → List Node → Output → Prop where
  | nil (depth : Nat) (escape : Escape) (c : Context) : Evaluates r depth escape c [] .empty
  | append {depth : Nat} {escape : Escape} {c : Context} {ns ms : List Node} {a b : Output}
      (hleft : Evaluates r depth escape c ns a) (hright : Evaluates r depth escape c ms b) :
      Evaluates r depth escape c (ns ++ ms) (a ++ b)
  | leaf (depth : Nat) (escape : Escape) (c : Context) (number : UInt32) (span : Span) (raw : Text)
      {content : Leaf} (hcontent : content.isPattern = false) :
      Evaluates r depth escape c [.leaf number span raw content]
        (r.evalLeaf none escape c raw content)
  | unknown (depth : Nat) (escape : Escape) {c : Context} (number : UInt32) (span : Span)
      (raw : Text) {category sect : Text} {word : Option VarPath}
      (hselect : r.selectPattern? category sect (word.bind c.textOf?) = none) :
      Evaluates r depth escape c [.leaf number span raw (.pattern category sect word)]
        (.warned raw (.unknownPool category sect r.library.version))
  | cut {depth : Nat} (escape : Escape) {c : Context} (number : UInt32) (span : Span) (raw : Text)
      {category sect source : Text} {word : Option VarPath}
      (hselect : r.selectPattern? category sect (word.bind c.textOf?) = some source)
      (hdepth : r.depthLimit ≤ depth) :
      Evaluates r depth escape c [.leaf number span raw (.pattern category sect word)]
        (.warned [] (.nestedTooDeep raw r.depthLimit))
  | expand {depth : Nat} (escape : Escape) {c : Context} (number : UInt32) (span : Span)
      (raw : Text) {category sect source : Text} {word : Option VarPath} {o : Output}
      (hselect : r.selectPattern? category sect (word.bind c.textOf?) = some source)
      (hdepth : depth < r.depthLimit)
      (hinside : Evaluates r (depth + 1) .verbatim c (Template.compile source).nodes o) :
      Evaluates r depth escape c [.leaf number span raw (.pattern category sect word)]
        ⟨escape.apply o.text, (Template.compile source).warnings ++ o.warnings⟩
  | when {depth : Nat} {escape : Escape} {c : Context} (number : UInt32) (span : Span)
      {condition : VarPath} {body : List Node} {o : Output} (hholds : c.holds condition = true)
      (hinside : Evaluates r depth escape c body o) :
      Evaluates r depth escape c [.when number span condition body] o
  | skip (depth : Nat) (escape : Escape) {c : Context} (number : UInt32) (span : Span)
      {condition : VarPath} (body : List Node) (hholds : c.holds condition = false) :
      Evaluates r depth escape c [.when number span condition body] .empty
  | yes {depth : Nat} {escape : Escape} {c : Context} (number : UInt32) (span : Span)
      {condition : VarPath} {body : List Node} (other : List Node) {o : Output}
      (hholds : c.holds condition = true) (hinside : Evaluates r depth escape c body o) :
      Evaluates r depth escape c [.choice number span condition body other] o
  | no {depth : Nat} {escape : Escape} {c : Context} (number : UInt32) (span : Span)
      {condition : VarPath} (other : List Node) {body : List Node} {o : Output}
      (hholds : c.holds condition = false) (hinside : Evaluates r depth escape c body o) :
      Evaluates r depth escape c [.choice number span condition other body] o
  | each {depth : Nat} {escape : Escape} {c : Context} (number : UInt32) (span : Span)
      (path : VarPath) {body : List Node} {outputs : Context → Output}
      (hinside : ∀ round ∈ c.rounds 0 (c.itemsOf path),
        Evaluates r depth escape round body (outputs round)) :
      Evaluates r depth escape c [.each number span path body]
        (.concat ((c.rounds 0 (c.itemsOf path)).map outputs))

/-- The expansion of patterns at some depth of nesting. -/
def expansionAt (r : Renderer) (depth : Nat) : Option Expansion := r.expansion (r.depthLimit - depth)

section

variable {r : Renderer} {depth : Nat}

theorem expansionAt_limit (h : r.depthLimit ≤ depth) : r.expansionAt depth = none := by
  rw [expansionAt, Nat.sub_eq_zero_of_le h]
  rfl

theorem expansionAt_below (h : depth < r.depthLimit) :
    r.expansionAt depth =
      some fun source c => r.evalTemplate (r.expansionAt (depth + 1)) .verbatim c (.compile source) := by
  have hlevels : r.depthLimit - depth = r.depthLimit - (depth + 1) + 1 := by omega
  rw [expansionAt, hlevels]
  rfl

/-- The rules give no other output than the evaluator. -/
theorem Evaluates.eq_evalNodes {escape : Escape} {c : Context} {ns : List Node} {o : Output}
    (h : r.Evaluates depth escape c ns o) :
    o = r.evalNodes (r.expansionAt depth) escape c ns := by
  induction h with
  | nil depth escape c => rfl
  | append _ _ ihleft ihright => rw [evalNodes_append, ← ihleft, ← ihright]
  | @leaf depth escape c number span raw content hcontent =>
      rw [evalNodes_singleton, evalNode]
      cases content with
      | pattern category sect word => exact absurd hcontent.symm Bool.false_ne_true
      | _ => rfl
  | unknown depth escape number span raw hselect =>
      rw [evalNodes_singleton, evalNode, evalLeaf, evalPattern, ← selectPattern?, hselect]
  | cut escape number span raw hselect hdepth =>
      rw [evalNodes_singleton, evalNode, evalLeaf, evalPattern, ← selectPattern?, hselect,
        expansionAt_limit hdepth]
  | expand escape number span raw hselect hdepth _ ih =>
      rw [evalNodes_singleton, evalNode, evalLeaf, evalPattern, ← selectPattern?, hselect,
        expansionAt_below hdepth, ih]
      rfl
  | when number span hholds _ ih => rw [evalNodes_singleton, evalNode, if_pos hholds, ih]
  | skip depth escape number span body hholds =>
      rw [evalNodes_singleton, evalNode, hholds, if_neg Bool.false_ne_true]
  | yes number span other hholds _ ih => rw [evalNodes_singleton, evalNode, if_pos hholds, ih]
  | no number span other hholds _ ih =>
      rw [evalNodes_singleton, evalNode, hholds, if_neg Bool.false_ne_true, ih]
  | each number span path _ ih =>
      rw [evalNodes_singleton, evalNode]
      exact congrArg Output.concat (List.map_congr_left ih)

/-- Every pattern that is expanded at some depth is evaluated to an end. -/
def Ends (r : Renderer) (depth : Nat) : Prop :=
  depth < r.depthLimit → ∀ source c, r.Evaluates (depth + 1) .verbatim c
    (Template.compile source).nodes
    (r.evalNodes (r.expansionAt (depth + 1)) .verbatim c (Template.compile source).nodes)

theorem evaluates_leaf (hends : r.Ends depth) (escape : Escape) (c : Context) (number : UInt32)
    (span : Span) (raw : Text) (content : Leaf) :
    r.Evaluates depth escape c [.leaf number span raw content]
      (r.evalLeaf (r.expansionAt depth) escape c raw content) := by
  cases content with
  | pattern category sect word =>
      rw [evalLeaf, evalPattern, ← selectPattern?]
      cases hselect : r.selectPattern? category sect (word.bind c.textOf?) with
      | none => exact .unknown depth escape number span raw hselect
      | some source =>
          by_cases hdepth : depth < r.depthLimit
          · rw [expansionAt_below hdepth]
            exact .expand escape number span raw hselect hdepth (hends hdepth source c)
          · have hlimit : r.depthLimit ≤ depth := Nat.le_of_not_lt hdepth
            rw [expansionAt_limit hlimit]
            exact .cut escape number span raw hselect hlimit
  | _ => exact .leaf depth escape c number span raw rfl

mutual

theorem evaluates_node (hends : r.Ends depth) (escape : Escape) (c : Context) (n : Node) :
    r.Evaluates depth escape c [n] (r.evalNode (r.expansionAt depth) escape c n) := by
  cases n with
  | leaf number span raw content =>
      rw [evalNode]
      exact evaluates_leaf hends escape c number span raw content
  | when number span condition body =>
      rw [evalNode]
      cases hholds : c.holds condition with
      | true => exact .when number span hholds (evaluates_nodes hends escape c body)
      | false => exact .skip depth escape number span body hholds
  | choice number span condition yes no =>
      rw [evalNode]
      cases hholds : c.holds condition with
      | true => exact .yes number span no hholds (evaluates_nodes hends escape c yes)
      | false => exact .no number span yes hholds (evaluates_nodes hends escape c no)
  | each number span path body =>
      rw [evalNode]
      exact .each number span path fun round _ => evaluates_nodes hends escape round body

theorem evaluates_nodes (hends : r.Ends depth) (escape : Escape) (c : Context) (ns : List Node) :
    r.Evaluates depth escape c ns (r.evalNodes (r.expansionAt depth) escape c ns) := by
  cases ns with
  | nil => exact .nil depth escape c
  | cons n ns =>
      rw [evalNodes]
      exact .append (evaluates_node hends escape c n) (evaluates_nodes hends escape c ns)

end

/-- Patterns are evaluated to an end at every depth, also those that refer to themselves. -/
theorem ends (r : Renderer) (depth : Nat) : r.Ends depth := by
  -- on the number of levels below the limit; within a level the tree gets smaller
  induction hlevels : r.depthLimit - depth generalizing depth with
  | zero =>
      intro hdepth
      omega
  | succ levels ih =>
      intro hdepth source c
      have hends : r.Ends (depth + 1) := ih (depth + 1) (by omega)
      exact evaluates_nodes hends .verbatim c _

/-- Every evaluation comes to an end, with the output of the evaluator and no other. -/
theorem evaluates_iff (r : Renderer) (escape : Escape) (c : Context) (t : Template) (o : Output) :
    r.Evaluates 0 escape c t.nodes o ↔ o = r.evaluateNodes escape c t := by
  constructor
  · exact Evaluates.eq_evalNodes
  · rintro rfl
    exact evaluates_nodes (r.ends 0) escape c t.nodes

end

/-! ## Rendering -/

/-- Evaluation comes to an end under every limit.  If no pattern is reported to be nested too deep,
    a greater limit gives the same page with the same reports, and the same document. -/
theorem limit_only_cuts (r : Renderer) (c : Context) (source : Text) :
    (∀ escape o, r.Evaluates 0 escape c (Template.compile source).nodes o ↔
        o = r.evaluateNodes escape c (.compile source)) ∧
      ∀ escape limit, (r.evaluate escape c (.compile source)).Uncut → r.depthLimit ≤ limit →
        (r.withLimit limit).render c source = r.render c source ∧
          (r.withLimit limit).structuredText c source = r.structuredText c source ∧
            (r.withLimit limit).renderStructured? c source = r.renderStructured? c source := by
  refine ⟨fun escape o => r.evaluates_iff escape c _ o, fun escape limit huncut hlimit => ?_⟩
  have hall : ∀ escape', (r.evaluate escape' c (.compile source)).Uncut := by
    intro escape'
    unfold Output.Uncut at huncut ⊢
    rw [r.warnings_evaluate] at huncut ⊢
    exact huncut
  have hsame : ∀ escape', (r.withLimit limit).evaluate escape' c (.compile source) =
      r.evaluate escape' c (.compile source) := fun escape' =>
    sameUncut_template (r.deeper_expansion limit hlimit) _ c (hall escape')
  have hrender : (r.withLimit limit).render c source = r.render c source := by
    rw [render, render, renderTemplate, renderTemplate, hsame]
  have htext : (r.withLimit limit).structuredText c source = r.structuredText c source := by
    rw [structuredText, structuredText, hsame]
  refine ⟨hrender, htext, ?_⟩
  rw [renderStructured?, renderStructured?, htext]

/-- A pattern that refers to itself where a variable holds, and one that refers to nothing known. -/
theorem limit_only_cuts_cycle :
    let pattern := braced "#if x".toList ++ braced "pattern a b".toList ++ braced "/if".toList ++
      braced "y".toList
    let r : Renderer := ⟨⟨[], [(['a'], [(['b'], [pattern])])]⟩, 0, 1⟩
    let source := braced "pattern a b".toList
    (r.evaluate .verbatim {} (.compile source)).Uncut ∧ r.depthLimit ≤ 5 ∧
      (r.withLimit 5).render {} source = r.render {} source ∧
        (r.withLimit 5).structuredText {} source = r.structuredText {} source ∧
          (r.withLimit 5).renderStructured? {} source = r.renderStructured? {} source := by
  have hcodes : (Renderer.evaluate ⟨⟨[], [(['a'], [(['b'],
      [braced "#if x".toList ++ braced "pattern a b".toList ++ braced "/if".toList ++
        braced "y".toList])])]⟩, 0, 1⟩ .verbatim {}
      (.compile (braced "pattern a b".toList))).warnings.map Warning.code = ["L-1-2".toList] := by
    decide +kernel
  have huncut := Output.uncut_iff.2 (hcodes ▸ (by decide : "L-1-5".toList ∉ ["L-1-2".toList]))
  have hlimit : 1 ≤ 5 := by decide
  intro pattern r source
  exact ⟨huncut, hlimit, (r.limit_only_cuts {} source).2 .verbatim 5 huncut hlimit⟩

end Renderer

end PagePress
