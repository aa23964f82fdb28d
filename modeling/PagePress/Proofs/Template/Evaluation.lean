/-
  PagePress.Proofs.Template.Evaluation

  Evaluation along a derivation.

  The numbers of nodes play no part in evaluation
  (`evalNodes_unnumberedAll`).  So a template whose tokens are balanced is
  evaluated as any derivation of them (`evaluate_of_derives`).
-/

import PagePress.Proofs.Template.Balance
import PagePress.Template.Evaluate

namespace PagePress

open Node (unnumbered unnumberedAll)

/-! ## Outputs in a row -/

namespace Output

theorem text_append (a b : Output) : (a ++ b).text = a.text ++ b.text := rfl

theorem warnings_append (a b : Output) : (a ++ b).warnings = a.warnings ++ b.warnings := rfl

theorem empty_append (a : Output) : empty ++ a = a := rfl

theorem append_empty (a : Output) : a ++ empty = a := by
  show Output.mk (a.text ++ []) (a.warnings ++ []) = a
  rw [List.append_nil, List.append_nil]

theorem append_assoc (a b c : Output) : a ++ b ++ c = a ++ (b ++ c) := by
  show Output.mk (a.text ++ b.text ++ c.text) (a.warnings ++ b.warnings ++ c.warnings) =
    Output.mk (a.text ++ (b.text ++ c.text)) (a.warnings ++ (b.warnings ++ c.warnings))
  rw [List.append_assoc, List.append_assoc]

end Output

/-! ## Numbers of nodes -/

namespace Renderer

variable (r : Renderer) (expand? : Option Expansion) (escape : Escape)

mutual

/-- A node is evaluated the same whatever the numbers in it are. -/
theorem evalNode_unnumbered (c : Context) (n : Node) :
    r.evalNode expand? escape c n.unnumbered = r.evalNode expand? escape c n := by
  cases n with
  | leaf number span raw content => rfl
  | when number span condition body =>
      rw [unnumbered, evalNode, evalNode, evalNodes_unnumberedAll c body]
  | choice number span condition yes no =>
      rw [unnumbered, evalNode, evalNode, evalNodes_unnumberedAll c yes,
        evalNodes_unnumberedAll c no]
  | each number span path body =>
      rw [unnumbered, evalNode, evalNode]
      simp only [fun round => evalNodes_unnumberedAll round body]

theorem evalNodes_unnumberedAll (c : Context) (ns : List Node) :
    r.evalNodes expand? escape c (unnumberedAll ns) = r.evalNodes expand? escape c ns := by
  cases ns with
  | nil => rfl
  | cons n ns =>
      rw [unnumberedAll, evalNodes, evalNodes, evalNode_unnumbered c n,
        evalNodes_unnumberedAll c ns]

end

theorem evalNodes_congr (c : Context) {ns ms : List Node}
    (h : unnumberedAll ns = unnumberedAll ms) :
    r.evalNodes expand? escape c ns = r.evalNodes expand? escape c ms := by
  rw [← evalNodes_unnumberedAll, h, evalNodes_unnumberedAll]

/-! ## Sequences -/

theorem evalNodes_append (c : Context) (ns ms : List Node) :
    r.evalNodes expand? escape c (ns ++ ms) =
      r.evalNodes expand? escape c ns ++ r.evalNodes expand? escape c ms := by
  induction ns with
  | nil => exact (Output.empty_append _).symm
  | cons n ns ih =>
      rw [List.cons_append, evalNodes, evalNodes, ih, Output.append_assoc]

theorem evalNodes_singleton (c : Context) (n : Node) :
    r.evalNodes expand? escape c [n] = r.evalNode expand? escape c n := by
  rw [evalNodes, evalNodes, Output.append_empty]

/-- A template with balanced tags is evaluated as any derivation of its tokens. -/
theorem evaluate_of_derives {source : Text} {ns : List Node}
    (h : Derives (Token.ofText source) ns) (c : Context) :
    r.evaluate escape c (.compile source) =
      r.evalNodes (r.expansion r.depthLimit) escape c ns := by
  obtain ⟨hwarnings, hnodes⟩ := Template.draft_of_derives h
  have heval := r.evalNodes_congr (r.expansion r.depthLimit) escape c hnodes
  rw [evaluate, evalTemplate, ← heval, Template.compile]
  simp only [hwarnings]
  rfl

end Renderer

end PagePress
