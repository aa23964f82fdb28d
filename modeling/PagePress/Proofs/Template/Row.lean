/-
  PagePress.Proofs.Template.Row

  Tags in a row.

  Tags that follow each other without anything in between are found one by
  one (`Piece.split_row`).  If none of them opens, divides or ends a block,
  the template gives their outputs in a row (`Renderer.evaluate_row`).
-/

import PagePress.Proofs.Template.Classify
import PagePress.Proofs.Template.Evaluation
import PagePress.Proofs.Template.Tiling

namespace PagePress

open Text (Unpaired)

/-! ## Content of tags -/

namespace Tag

/-- An argument that braces around a tag do not run into. -/
def Argument.Braceless : Argument → Prop
  | .bare t => '{' ∉ t ∧ '}' ∉ t
  | .quoted t => Unpaired '{' t ∧ Unpaired '}' t

theorem Argument.Braceless.clear {a : Argument} (h : a.Braceless) :
    Clear '{' a.written ∧ Clear '}' a.written := by
  cases a with
  | bare t => exact ⟨.of_not_mem h.1, .of_not_mem h.2⟩
  | quoted t =>
      exact ⟨.between (by decide) (by decide) h.1, .between (by decide) (by decide) h.2⟩

/-- Arguments can stand between the braces of a tag. -/
theorem enclosed_written {args : List Argument} (h : ∀ a ∈ args, a.Braceless) :
    Enclosed (written args) := by
  have hclear : Clear '{' (written args) ∧ Clear '}' (written args) := by
    induction args with
    | nil => exact ⟨.of_not_mem List.not_mem_nil, .of_not_mem List.not_mem_nil⟩
    | cons a args ih =>
        obtain ⟨ha, hargs⟩ := List.forall_mem_cons.1 h
        by_cases hne : args = []
        · rw [hne, written_singleton]
          exact ha.clear
        · have hblank : Clear '{' [' '] ∧ Clear '}' [' '] :=
            ⟨.of_not_mem (by decide), .of_not_mem (by decide)⟩
          rw [written_cons a hne]
          exact ⟨ha.clear.1.append (hblank.1.append (ih hargs).1),
            ha.clear.2.append (hblank.2.append (ih hargs).2)⟩
  exact .of_clear hclear.1 hclear.2

end Tag

theorem VarPath.braceless_display (p : VarPath) : (Tag.Argument.bare p.display).Braceless :=
  ⟨Tag.not_mem_of_parse? (.inl rfl) p.parse?_display,
    Tag.not_mem_of_parse? (.inr rfl) p.parse?_display⟩

/-! ## Pieces -/

namespace Piece

theorem scan_braced {body : Text} (h : Enclosed body) (rest : Text) :
    scan [] (braced body ++ rest) = tag body :: scan [] rest := by
  have hopen : Text.cutAtPair '{' (braced body ++ rest) =
      some ([], body ++ '}' :: '}' :: rest) := by
    rw [braced_append]
    exact if_pos ⟨rfl, rfl⟩
  have hclose : Text.cutAtPair '}' (body ++ '}' :: '}' :: rest) = some (body, rest) :=
    Text.cutAtPair_eq_some_iff.2 ⟨rfl, h.closes⟩
  have hinside : Text.cutAtPair '{' body = none :=
    Text.cutAtPair_eq_none_iff.2 (Text.unpaired_cons.1 h.opens).2
  exact scan_closed hopen hclose hinside

/-- Tags in a row are found one by one. -/
theorem split_row {bodies : List Text} (h : ∀ body ∈ bodies, Enclosed body) :
    split (bodies.flatMap braced) = bodies.map tag := by
  induction bodies with
  | nil => exact scan_plain rfl
  | cons body bodies ih =>
      obtain ⟨hbody, hbodies⟩ := List.forall_mem_cons.1 h
      rw [List.flatMap_cons, split, scan_braced hbody, ← split, ih hbodies, List.map_cons]

end Piece

/-! ## Evaluation -/

/-- What stands between the braces of a tag, and the leaf that it is. -/
structure WrittenLeaf where
  body : Text
  leaf : Leaf
  enclosed : Enclosed body
  leaf?_classify : (Tag.classify body).leaf? = some leaf

namespace WrittenLeaf

/-- The template of some tags in a row. -/
def source (row : List WrittenLeaf) : Text := (row.map body).flatMap braced

theorem exists_derives (row : List WrittenLeaf) (start : Nat) :
    ∃ ns, Derives (Token.place start ((row.map body).map Piece.tag)) ns ∧
      ∀ (r : Renderer) (expand? : Option Expansion) (escape : Escape) (c : Context),
        r.evalNodes expand? escape c ns =
          .concat (row.map fun b => r.evalLeaf expand? escape c (braced b.body) b.leaf) := by
  induction row generalizing start with
  | nil => exact ⟨[], .nil, fun _ _ _ _ => rfl⟩
  | cons b row ih =>
      obtain ⟨ns, hns, heval⟩ := ih (start + Text.bytes (braced b.body))
      refine ⟨_, .leaf 0 b.leaf?_classify hns, fun r expand? escape c => ?_⟩
      rw [Renderer.evalNodes, heval]
      rfl

end WrittenLeaf

/-- Tags in a row, none of them a block tag, give their outputs in a row. -/
theorem Renderer.evaluate_row (r : Renderer) (escape : Escape) (c : Context)
    (row : List WrittenLeaf) :
    r.evaluate escape c (.compile (WrittenLeaf.source row)) =
      .concat (row.map fun b =>
        r.evalLeaf (r.expansion r.depthLimit) escape c (braced b.body) b.leaf) := by
  obtain ⟨ns, hns, heval⟩ := WrittenLeaf.exists_derives row 0
  have hclosed : ∀ body ∈ row.map WrittenLeaf.body, Enclosed body := by
    intro body hbody
    obtain ⟨b, -, rfl⟩ := List.mem_map.1 hbody
    exact b.enclosed
  have hderives : Derives (Token.ofText (WrittenLeaf.source row)) ns := by
    rw [Token.ofText, WrittenLeaf.source, Piece.split_row hclosed]
    exact hns
  rw [r.evaluate_of_derives escape hderives c, heval]

end PagePress
