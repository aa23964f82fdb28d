/-
  PagePress.Proofs.Template.Balance

  What the reader of templates does with balanced tokens.

  A balanced sequence leaves the open blocks and the reports as they are and
  adds its derivation to the innermost sequence (`run_derives`).
-/

import PagePress.Proofs.Template.Derivation

namespace PagePress

open Node (unnumbered unnumberedAll unnumberedAll_append)

namespace Assembly

/-! ## Runs -/

@[simp] theorem run_nil (a : Assembly) : a.run [] = a := rfl

@[simp] theorem run_cons (a : Assembly) (t : Token) (ts : List Token) :
    a.run (t :: ts) = (a.step t).run ts := rfl

theorem run_append (a : Assembly) (ts us : List Token) :
    a.run (ts ++ us) = (a.run ts).run us := by
  unfold run
  rw [List.foldl_append]

/-- At the end of a template no block stays open. -/
theorem blocks_unwind_all (bs : List Block) (d : Draft) :
    (unwind (fun _ => false) bs d).blocks = [] := by
  induction bs generalizing d with
  | nil => rfl
  | cons b bs ih => exact ih (d.giveUp b)

/-! ## Steps -/

theorem step_leaf {t : Token} {content : Leaf} (h : t.leaf? = some content) (a : Assembly) :
    a.step t = a.addLeaf t content := by
  unfold Token.leaf? at h
  unfold step
  cases ht : t.tag? with
  | none =>
      rw [ht] at h
      simp only [Option.some.injEq] at h
      subst h
      rfl
  | some tag =>
      rw [ht] at h
      cases tag <;> simp only [Tag.leaf?, Option.some.injEq, reduceCtorEq] at h <;> subst h <;> rfl

theorem step_openIf {t : Token} {condition : VarPath} (h : t.tag? = some (.openIf condition))
    (a : Assembly) : a.step t = a.openBlock t (.conditional condition) := by
  unfold step
  rw [h]

theorem step_openEach {t : Token} {path : VarPath} (h : t.tag? = some (.openEach path))
    (a : Assembly) : a.step t = a.openBlock t (.loop path) := by
  unfold step
  rw [h]

theorem step_otherwise {t : Token} (h : t.tag? = some .otherwise) (a : Assembly) :
    a.step t = a.divide t := by
  unfold step
  rw [h]

theorem step_closeIf {t : Token} (h : t.tag? = some .closeIf) (a : Assembly) :
    a.step t = a.closeBlock t .closeIf := by
  unfold step
  rw [h]

theorem step_closeEach {t : Token} (h : t.tag? = some .closeEach) (a : Assembly) :
    a.step t = a.closeBlock t .closeEach := by
  unfold step
  rw [h]

theorem step_closer {t : Token} (kind : BlockKind) (h : t.tag? = some kind.closer)
    (a : Assembly) : a.step t = a.closeBlock t kind.closer := by
  cases kind with
  | conditional condition => exact step_closeIf h a
  | loop path => exact step_closeEach h a

/-- A dividing tag in a conditional that is not divided yet sets the first branch aside. -/
theorem divide_undivided (condition : VarPath) (o : Token) (before : List Node) (bs : List Block)
    (d : Draft) (t : Token) :
    divide ⟨⟨.conditional condition, o, before, none⟩ :: bs, d⟩ t =
      ⟨⟨.conditional condition, o, before, some (d.nodes, t)⟩ :: bs, { d with nodes := [] }⟩ :=
  rfl

/-- The innermost block ends at once with a tag of its kind. -/
theorem closeBlock_innermost (b : Block) (bs : List Block) (d : Draft) (t : Token) :
    closeBlock ⟨b :: bs, d⟩ t b.kind.closer = ⟨bs, d.finish b⟩ := by
  simp only [closeBlock, unwind, beq_self_eq_true, if_true]

/-! ## Balanced sequences -/

/-- The second state is the first with some nodes added to the innermost sequence, up to their
    numbers; the open blocks and the reports are the same. -/
structure Extends (a b : Assembly) (ns : List Node) : Prop where
  blocks : b.blocks = a.blocks
  warnings : b.draft.warnings = a.draft.warnings
  nodes : unnumberedAll b.draft.nodes = unnumberedAll a.draft.nodes ++ unnumberedAll ns

namespace Extends

theorem refl (a : Assembly) : Extends a a [] :=
  ⟨rfl, rfl, (List.append_nil _).symm⟩

theorem trans {a b c : Assembly} {ns ms : List Node} (hab : Extends a b ns)
    (hbc : Extends b c ms) : Extends a c (ns ++ ms) where
  blocks := hbc.blocks.trans hab.blocks
  warnings := hbc.warnings.trans hab.warnings
  nodes := by rw [hbc.nodes, hab.nodes, unnumberedAll_append, List.append_assoc]

theorem addLeaf (a : Assembly) (t : Token) (content : Leaf) (number : UInt32) :
    Extends a (a.addLeaf t content) [.leaf number t.span t.raw content] where
  blocks := rfl
  warnings := rfl
  nodes := unnumberedAll_append _ _

theorem finish_when {a : Assembly} {d : Draft} (o : Token) (condition : VarPath)
    {body : List Node} (number : UInt32) (hw : d.warnings = a.draft.warnings)
    (hn : unnumberedAll d.nodes = unnumberedAll body) :
    Extends a ⟨a.blocks, d.finish ⟨.conditional condition, o, a.draft.nodes, none⟩⟩
      [.when number o.span condition body] where
  blocks := rfl
  warnings := hw
  nodes := by
    simp only [Draft.finish, unnumberedAll_append, unnumberedAll, unnumbered, hn]

theorem finish_choice {a : Assembly} {d : Draft} (o t : Token) (condition : VarPath)
    {first yes no : List Node} (number : UInt32) (hw : d.warnings = a.draft.warnings)
    (hy : unnumberedAll first = unnumberedAll yes) (hn : unnumberedAll d.nodes = unnumberedAll no) :
    Extends a ⟨a.blocks, d.finish ⟨.conditional condition, o, a.draft.nodes, some (first, t)⟩⟩
      [.choice number o.span condition yes no] where
  blocks := rfl
  warnings := hw
  nodes := by
    simp only [Draft.finish, unnumberedAll_append, unnumberedAll, unnumbered, hy, hn]

theorem finish_each {a : Assembly} {d : Draft} (o : Token) (path : VarPath)
    {body : List Node} (number : UInt32) (hw : d.warnings = a.draft.warnings)
    (hn : unnumberedAll d.nodes = unnumberedAll body) :
    Extends a ⟨a.blocks, d.finish ⟨.loop path, o, a.draft.nodes, none⟩⟩
      [.each number o.span path body] where
  blocks := rfl
  warnings := hw
  nodes := by
    simp only [Draft.finish, unnumberedAll_append, unnumberedAll, unnumbered, hn]

end Extends

/-- What is read from the start of a branch on stays in that branch. -/
theorem Extends.inside {bs : List Block} {d : Draft} {b : Assembly} {ns : List Node}
    (h : Extends ⟨bs, { d with nodes := [] }⟩ b ns) :
    b = ⟨bs, b.draft⟩ ∧ b.draft.warnings = d.warnings ∧
      unnumberedAll b.draft.nodes = unnumberedAll ns := by
  obtain ⟨blocks, d'⟩ := b
  obtain rfl : blocks = bs := h.blocks
  exact ⟨rfl, h.warnings, h.nodes⟩

/-- A balanced sequence adds its derivation, reports nothing and leaves no block open. -/
theorem run_derives {ts : List Token} {ns : List Node} (h : Derives ts ns) (a : Assembly) :
    Extends a (a.run ts) ns := by
  -- on the derivation, for every state: a body is read in the state its opener leaves
  induction h generalizing a with
  | nil => exact .refl a
  | leaf number ht _ ih =>
      rw [run_cons, step_leaf ht]
      exact (Extends.addLeaf a _ _ number).trans (ih _)
  | @when number o e condition us ts body ns ho hbody he rest ihbody ihrest =>
      obtain ⟨hin, hw, hn⟩ := (ihbody (a.openBlock o (.conditional condition))).inside
      rw [run_cons, step_openIf ho, run_append, hin, run_cons,
        step_closer (.conditional condition) he, closeBlock_innermost]
      exact (Extends.finish_when o condition number hw hn).trans (ihrest _)
  | @choice number o t e condition us vs ts yes no ns ho hyes ht hno he rest ihyes ihno ihrest =>
      obtain ⟨hin, hw, hy⟩ := (ihyes (a.openBlock o (.conditional condition))).inside
      generalize ((a.openBlock o (.conditional condition)).run us).draft = d at hin hw hy
      -- the second branch is read as the first was, with the first one set aside
      obtain ⟨hin', hw', hn⟩ := (ihno
        ⟨⟨.conditional condition, o, a.draft.nodes, some (d.nodes, t)⟩ :: a.blocks,
          { d with nodes := [] }⟩).inside
      rw [run_cons, step_openIf ho, run_append, hin, run_cons, step_otherwise ht,
        divide_undivided, run_append, hin', run_cons,
        step_closer (.conditional condition) he, closeBlock_innermost]
      exact (Extends.finish_choice o t condition number (hw'.trans hw) hy hn).trans (ihrest _)
  | @each number o e path us ts body ns ho hbody he rest ihbody ihrest =>
      obtain ⟨hin, hw, hn⟩ := (ihbody (a.openBlock o (.loop path))).inside
      rw [run_cons, step_openEach ho, run_append, hin, run_cons,
        step_closer (.loop path) he, closeBlock_innermost]
      exact (Extends.finish_each o path number hw hn).trans (ihrest _)

end Assembly

/-- The tree of a balanced sequence is its derivation, and nothing is reported. -/
theorem Template.draft_of_derives {ts : List Token} {ns : List Node} (h : Derives ts ns) :
    (draft ts).warnings = [] ∧ unnumberedAll (draft ts).nodes = unnumberedAll ns := by
  have hx := Assembly.run_derives h .start
  -- no block is left open at the end, so there is nothing to give up
  have hc : (draft ts) = (Assembly.start.run ts).draft := by
    unfold draft Assembly.complete
    rw [hx.blocks]
    rfl
  rw [hc]
  exact ⟨hx.warnings, hx.nodes⟩

end PagePress
