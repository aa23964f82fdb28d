/-
  PagePress.Proofs.Template.Comparison

  Two evaluations of one tree.

  A relation of outputs that is kept when outputs are put in a row holds of
  the outputs of a tree in two evaluations as soon as it holds of those of its
  leaves (`Renderer.evalNodes_related`).  The evaluations may differ in the
  renderer, in the way patterns are expanded and in the way text is escaped.
-/

import PagePress.Proofs.Template.Evaluation
import PagePress.Proofs.Template.Preorder

namespace PagePress

open Node (preorderAll preorderAll_append preorderAll_cons)

/-! ## Relations of outputs -/

namespace Output

/-- A relation of outputs that is kept when outputs are put in a row. -/
structure Congruence (R : Output → Output → Prop) : Prop where
  own (ws : List Warning) : R ⟨[], ws⟩ ⟨[], ws⟩
  append {a a' b b' : Output} (h : R a a') (h' : R b b') : R (a ++ b) (a' ++ b')

namespace Congruence

variable {R : Output → Output → Prop}

theorem empty (hR : Congruence R) : R .empty .empty := hR.own []

theorem concat {α : Type} (hR : Congruence R) {f g : α → Output} (h : ∀ x, R (f x) (g x))
    (xs : List α) : R (.concat (xs.map f)) (.concat (xs.map g)) := by
  induction xs with
  | nil => exact hR.empty
  | cons x xs ih => exact hR.append (h x) ih

end Congruence

theorem congruence_eq : Congruence Eq where
  own _ := rfl
  append h h' := by rw [h, h']

end Output

/-! ## Trees -/

namespace Renderer

variable {R : Output → Output → Prop} {r r' : Renderer} {expand? expand'? : Option Expansion}
  {escape escape' : Escape}

/-- The leaves of some nodes have related outputs in two evaluations. -/
def LeavesRelated (R : Output → Output → Prop) (r r' : Renderer)
    (expand? expand'? : Option Expansion) (escape escape' : Escape) (ns : List Node) : Prop :=
  ∀ number span raw content, .leaf number span raw content ∈ preorderAll ns → ∀ c,
    R (r.evalLeaf expand? escape c raw content) (r'.evalLeaf expand'? escape' c raw content)

namespace LeavesRelated

variable {ns ms : List Node}

theorem left (h : LeavesRelated R r r' expand? expand'? escape escape' (ns ++ ms)) :
    LeavesRelated R r r' expand? expand'? escape escape' ns := by
  intro number span raw content hmem
  apply h number span raw content
  rw [preorderAll_append]
  exact List.mem_append_left _ hmem

theorem right (h : LeavesRelated R r r' expand? expand'? escape escape' (ns ++ ms)) :
    LeavesRelated R r r' expand? expand'? escape escape' ms := by
  intro number span raw content hmem
  apply h number span raw content
  rw [preorderAll_append]
  exact List.mem_append_right _ hmem

theorem children {n : Node} (h : LeavesRelated R r r' expand? expand'? escape escape' [n]) :
    LeavesRelated R r r' expand? expand'? escape escape' n.children := by
  intro number span raw content hmem
  apply h number span raw content
  rw [preorderAll_cons]
  exact List.mem_cons_of_mem n (List.mem_append_left _ hmem)

end LeavesRelated

mutual

theorem evalNode_related (hR : Output.Congruence R) (n : Node)
    (hleaf : LeavesRelated R r r' expand? expand'? escape escape' [n]) (c : Context) :
    R (r.evalNode expand? escape c n) (r'.evalNode expand'? escape' c n) := by
  have hinside := hleaf.children
  cases n with
  | leaf number span raw content =>
      rw [evalNode, evalNode]
      exact hleaf number span raw content (Node.mem_preorderAll (List.mem_singleton_self _)) c
  | when number span condition body =>
      rw [evalNode, evalNode]
      split
      · exact evalNodes_related hR body hinside c
      · exact hR.empty
  | choice number span condition yes no =>
      rw [evalNode, evalNode]
      split
      · exact evalNodes_related hR yes hinside.left c
      · exact evalNodes_related hR no hinside.right c
  | each number span path body =>
      rw [evalNode, evalNode]
      exact hR.concat (fun round => evalNodes_related hR body hinside round) _

/-- If the leaves of a tree have related outputs, so has the tree. -/
theorem evalNodes_related (hR : Output.Congruence R) (ns : List Node)
    (hleaf : LeavesRelated R r r' expand? expand'? escape escape' ns) (c : Context) :
    R (r.evalNodes expand? escape c ns) (r'.evalNodes expand'? escape' c ns) := by
  cases ns with
  | nil => exact hR.empty
  | cons n ns =>
      have hsplit : LeavesRelated R r r' expand? expand'? escape escape' ([n] ++ ns) := hleaf
      have hfirst := evalNode_related hR n hsplit.left c
      have hrest := evalNodes_related hR ns hsplit.right c
      rw [evalNodes, evalNodes]
      exact hR.append hfirst hrest

end

/-- A template reports the same about itself in both evaluations. -/
theorem evalTemplate_related (hR : Output.Congruence R) (t : Template)
    (hleaf : LeavesRelated R r r' expand? expand'? escape escape' t.nodes) (c : Context) :
    R (r.evalTemplate expand? escape c t) (r'.evalTemplate expand'? escape' c t) :=
  hR.append (hR.own t.warnings) (evalNodes_related hR t.nodes hleaf c)

end Renderer

end PagePress
