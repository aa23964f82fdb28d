/-
  PagePress.Proofs.Template.Continuation

  Templates in a row.

  A template whose tags are balanced, and that leaves no pair of opening
  braces open at its end, can be continued by any other: the output of the two
  in a row is the output of the first followed by that of the second
  (`Renderer.evaluate_append`).  The plain text in which the first ends and the
  second starts is one piece of the whole, and that is all that changes.
-/

import PagePress.Proofs.Template.Follow
import PagePress.Proofs.Template.Recovery
import PagePress.Proofs.Template.Tiling

namespace PagePress

theorem Token.place_append (start : Nat) (ps qs : List Piece) :
    ∃ stop, place start (ps ++ qs) = place start ps ++ place stop qs := by
  induction ps generalizing start with
  | nil => exact ⟨start, rfl⟩
  | cons p ps ih =>
      obtain ⟨stop, hstop⟩ := ih (start + Text.bytes p.raw)
      exact ⟨stop, congrArg _ hstop⟩

/-! ## Open blocks -/

namespace Piece

/-- After the pieces of a template no block is open. -/
def Closed (ps : List Piece) : Prop := (Assembly.start.run (Token.place 0 ps)).blocks = []

theorem closed_of_derives {ps : List Piece} {ns : List Node}
    (h : Derives (Token.place 0 ps) ns) : Closed ps :=
  (Assembly.run_derives h .start).blocks

theorem closed_ofPlain (t : Text) : Closed (ofPlain t) := by
  cases t <;> rfl

/-- Plain text at the end opens and ends no block. -/
theorem closed_append_ofPlain {ps : List Piece} {t : Text} :
    Closed (ps ++ ofPlain t) ↔ Closed ps := by
  obtain ⟨stop, hplace⟩ := Token.place_append 0 ps (ofPlain t)
  rw [Closed, hplace, Assembly.run_append]
  cases t <;> rfl

end Piece

namespace Renderer

section Pieces

variable (r : Renderer) (expand? : Option Expansion) (escape : Escape) (c : Context)

/-- The output of the pieces of a template. -/
def evalPieces (ps : List Piece) : Output :=
  r.evalNodes expand? escape c (Template.draft (Token.place 0 ps)).nodes

theorem evalPieces_append {ps : List Piece} (h : Piece.Closed ps) (qs : List Piece) :
    r.evalPieces expand? escape c (ps ++ qs) =
      r.evalPieces expand? escape c ps ++ r.evalPieces expand? escape c qs := by
  obtain ⟨stop, hplace⟩ := Token.place_append 0 ps qs
  unfold evalPieces
  rw [hplace, evalNodes_draft_append r expand? escape h,
    evalNodes_draft_congr r expand? escape (Token.place_alike qs stop 0)]

theorem evalPieces_ofPlain (t : Text) :
    r.evalPieces expand? escape c (Piece.ofPlain t) = .ofText t := by
  cases t with
  | nil => rfl
  | cons d t => exact Output.append_empty _

/-- Plain text in front of pieces comes first in their output. -/
theorem evalPieces_ofPlain_append (t : Text) (ps : List Piece) :
    r.evalPieces expand? escape c (Piece.ofPlain t ++ ps) =
      .ofText t ++ r.evalPieces expand? escape c ps := by
  rw [evalPieces_append r expand? escape c (Piece.closed_ofPlain t), evalPieces_ofPlain]

/-- Text that goes on behind the last tag of a template adds its own output. -/
theorem evalPieces_split_append {a : Text} (b : Text) (hclosed : Piece.Closed (Piece.split a))
    (hopen : Text.Unpaired '{' (Piece.trailing (Piece.split a)))
    (hlast : (Piece.trailing (Piece.split a)).getLast? ≠ some '{') :
    r.evalPieces expand? escape c (Piece.split (a ++ b)) =
      r.evalPieces expand? escape c (Piece.split a) ++
        r.evalPieces expand? escape c (Piece.split b) := by
  obtain ⟨ps, ha, hgoes⟩ := Piece.scan_append [] a
  obtain ⟨first, qs, hb⟩ := Piece.exists_scan_eq b
  unfold Piece.split at hclosed hopen hlast ⊢
  rw [hgoes hopen hlast b]
  generalize Piece.trailing (Piece.scan [] a) = tail at ha ⊢
  rw [ha] at hclosed ⊢
  have hps := Piece.closed_append_ofPlain.1 hclosed
  rw [hb tail, hb [], evalPieces_append r expand? escape c hps,
    evalPieces_append r expand? escape c hps, evalPieces_ofPlain_append, evalPieces_ofPlain_append,
    evalPieces_ofPlain, Output.append_assoc, ← Output.append_assoc (.ofText tail)]
  rfl

end Pieces

end Renderer

/-- The plain text of a template behind its last tag. -/
def Template.tail (source : Text) : Text := Piece.trailing (Piece.split source)

/-- A template ends in the text behind its last tag. -/
theorem Template.tail_suffix (source : Text) : tail source <:+ source := by
  obtain ⟨ps, hps, -⟩ := Piece.scan_append [] source
  have htext := Piece.flatMap_raw_scan [] source
  rw [hps, List.flatMap_append, Piece.flatMap_raw_ofPlain] at htext
  exact ⟨_, htext⟩

namespace Renderer

/-- What the evaluation of a template gives, without the warnings of the template itself. -/
def evaluateNodes (r : Renderer) (escape : Escape) (c : Context) (t : Template) : Output :=
  r.evalNodes (r.expansion r.depthLimit) escape c t.nodes

theorem evaluate_eq (r : Renderer) (escape : Escape) (c : Context) (t : Template) :
    r.evaluate escape c t =
      ⟨(r.evaluateNodes escape c t).text, t.warnings ++ (r.evaluateNodes escape c t).warnings⟩ :=
  rfl

/-- If the tags of a template are balanced, no pair of opening braces stands behind its last tag,
    and it does not end in such a brace, then the text of the template continued by another one is
    its own text followed by that of the other, and so are the warnings of the evaluation. -/
theorem evaluate_append {a : Text} (b : Text) (hbalanced : (Template.compile a).warnings = [])
    (hopen : ¬ ['{', '{'] <:+: Template.tail a) (hlast : a.getLast? ≠ some '{')
    (r : Renderer) (escape : Escape) (c : Context) :
    (r.evaluate escape c (.compile (a ++ b))).text =
        (r.evaluate escape c (.compile a)).text ++ (r.evaluate escape c (.compile b)).text ∧
      (r.evaluateNodes escape c (.compile (a ++ b))).warnings =
        (r.evaluateNodes escape c (.compile a)).warnings ++
          (r.evaluateNodes escape c (.compile b)).warnings := by
  -- balanced tokens leave no block open
  obtain ⟨us, -, hderives, hclean⟩ := Template.draft_settles (Token.ofText a)
  rw [hclean hbalanced] at hderives
  have hclosed : Piece.Closed (Piece.split a) := Piece.closed_of_derives hderives
  have hlast' : (Template.tail a).getLast? ≠ some '{' := by
    obtain ⟨x, hx⟩ := Template.tail_suffix a
    intro htail
    rw [← hx, List.getLast?_append, htail] at hlast
    exact hlast rfl
  have heval : r.evaluateNodes escape c (.compile (a ++ b)) =
      r.evaluateNodes escape c (.compile a) ++ r.evaluateNodes escape c (.compile b) :=
    r.evalPieces_split_append _ escape c b hclosed (Text.unpaired_iff.2 hopen) hlast'
  rw [evaluate_eq, evaluate_eq, evaluate_eq, heval]
  exact ⟨rfl, rfl⟩

/-- A remark and a closing brace, continued by a template with tags that are not balanced. -/
theorem evaluate_append_remark :
    let a := braced "! n".toList ++ ['}']
    let b := "\x7d\x7b\x7by\x7d\x7d\x7b\x7b/if\x7d\x7d".toList
    let r : Renderer := ⟨{}, 0, defaultDepthLimit⟩
    (Template.compile a).warnings = [] ∧ ¬ ['{', '{'] <:+: Template.tail a ∧
      a.getLast? ≠ some '{' ∧
      (r.evaluate .json {} (.compile (a ++ b))).text =
          (r.evaluate .json {} (.compile a)).text ++ (r.evaluate .json {} (.compile b)).text ∧
        (r.evaluateNodes .json {} (.compile (a ++ b))).warnings =
          (r.evaluateNodes .json {} (.compile a)).warnings ++
            (r.evaluateNodes .json {} (.compile b)).warnings := by
  have hbalanced : (Template.compile (braced "! n".toList ++ ['}'])).warnings = [] := by decide +kernel
  have htail : Template.tail (braced "! n".toList ++ ['}']) = ['}'] := by decide +kernel
  have hopen : ¬ ['{', '{'] <:+: Template.tail (braced "! n".toList ++ ['}']) := by
    rw [htail]
    decide
  have hlast : (braced "! n".toList ++ ['}']).getLast? ≠ some '{' := by decide
  intro a b r
  exact ⟨hbalanced, hopen, hlast, evaluate_append b hbalanced hopen hlast r .json {}⟩

end Renderer

end PagePress
