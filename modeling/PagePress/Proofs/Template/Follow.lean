/-
  PagePress.Proofs.Template.Follow

  Two readings of the same tokens.

  A state follows another when it has the same blocks open and related nodes
  in every sequence, except that some nodes come first in the outermost one
  (`Follows`).  Every token keeps this (`Follows.step`), whatever the relation
  is, if nodes built alike from related ones are related (`Compatible`).
  With the relation of the same output, what was read before a point where no
  block is open plays no part in what is read after it
  (`Renderer.evalNodes_draft_append`), and neither does the place where the
  tokens stand (`Renderer.evalNodes_draft_congr`).
-/

import Mathlib.Data.List.Forall2
import Mathlib.Data.Option.Basic
import PagePress.Proofs.Template.Comparison

namespace PagePress

/-! ## Tokens up to their place -/

/-- The same tag or text, possibly in another place. -/
structure Token.Alike (t u : Token) : Prop where
  raw : t.raw = u.raw
  tag? : t.tag? = u.tag?

theorem Token.alike_refl (ts : List Token) : List.Forall₂ Alike ts ts :=
  List.forall₂_same.2 fun _ _ => ⟨rfl, rfl⟩

theorem Token.place_alike (ps : List Piece) (start stop : Nat) :
    List.Forall₂ Alike (place start ps) (place stop ps) := by
  induction ps generalizing start stop with
  | nil => exact .nil
  | cons p ps ih => exact .cons ⟨rfl, rfl⟩ (ih _ _)

/-! ## Sequences built alike -/

/-- A relation of sequences of nodes that is kept by all that reading tokens does with sequences;
    the numbers and places of nodes play no part in it. -/
structure Compatible (R : List Node → List Node → Prop) : Prop where
  nil : R [] []
  append {ns ms xs ys : List Node} (h : R ns ms) (h' : R xs ys) : R (ns ++ xs) (ms ++ ys)
  leaf (number number' : UInt32) (span span' : Span) (raw : Text) (content : Leaf) :
    R [.leaf number span raw content] [.leaf number' span' raw content]
  when (number number' : UInt32) (span span' : Span) (condition : VarPath)
    {ns ms : List Node} (h : R ns ms) :
    R [.when number span condition ns] [.when number' span' condition ms]
  choice (number number' : UInt32) (span span' : Span) (condition : VarPath)
    {ns ms xs ys : List Node} (h : R ns ms) (h' : R xs ys) :
    R [.choice number span condition ns xs] [.choice number' span' condition ms ys]
  each (number number' : UInt32) (span span' : Span) (path : VarPath)
    {ns ms : List Node} (h : R ns ms) :
    R [.each number span path ns] [.each number' span' path ms]

section

variable (R : List Node → List Node → Prop)

/-- The blocks in which a sequence stands and the sequence itself, of two states: the second is
    related to the first with some nodes at the start of the outermost sequence. -/
inductive Frames (ps : List Node) : List Block → List Node → List Block → List Node → Prop where
  | outermost {ns ms : List Node} (h : R (ps ++ ns) ms) : Frames ps [] ns [] ms
  | inside {b b' : Block} {bs bs' : List Block} {ns ms : List Node} (kind : b.kind = b'.kind)
      (opener : b.opener.raw = b'.opener.raw)
      (first : Option.Rel (fun x y => R x.1 y.1 ∧ x.2.raw = y.2.raw) b.firstBranch b'.firstBranch)
      (h : R ns ms) (outer : Frames ps bs b.before bs' b'.before) :
      Frames ps (b :: bs) ns (b' :: bs') ms

/-- The second state is related to the first with some nodes at the start of the outermost
    sequence. -/
def Follows (ps : List Node) (a a' : Assembly) : Prop :=
  Frames R ps a.blocks a.draft.nodes a'.blocks a'.draft.nodes

end

section

variable {R : List Node → List Node → Prop} (hR : Compatible R)

include hR

theorem Compatible.cons_leaf (number number' : UInt32) (span span' : Span) {raw raw' : Text}
    (h : raw = raw') (content : Leaf) {ns ms : List Node} (hn : R ns ms) :
    R (.leaf number span raw content :: ns) (.leaf number' span' raw' content :: ms) := by
  subst h
  exact hR.append (hR.leaf number number' span span' raw content) hn

namespace Frames

variable {ps ns ms xs ys : List Node} {bs bs' : List Block}

/-- Both innermost sequences go on alike. -/
theorem append (h : Frames R ps bs ns bs' ms) (hx : R xs ys) :
    Frames R ps bs (ns ++ xs) bs' (ms ++ ys) := by
  cases h with
  | outermost h =>
      refine .outermost ?_
      rw [← List.append_assoc]
      exact hR.append h hx
  | inside kind opener first h outer => exact .inside kind opener first (hR.append h hx) outer

variable {b b' : Block} {d d' : Draft}

theorem giveUp (h : Frames R ps (b :: bs) d.nodes (b' :: bs') d'.nodes) :
    Frames R ps bs (d.giveUp b).nodes bs' (d'.giveUp b').nodes := by
  cases h with
  | inside kind opener first h outer =>
      unfold Draft.giveUp
      generalize b.firstBranch = x at first
      generalize b'.firstBranch = x' at first
      cases first with
      | none => exact outer.append hR (hR.cons_leaf _ _ _ _ opener .literal h)
      | some hfirst =>
          exact outer.append hR (hR.cons_leaf _ _ _ _ opener .literal
            (hR.append hfirst.1 (hR.cons_leaf _ _ _ _ hfirst.2 .literal h)))

theorem unwind (stop : Block → Bool) (hstop : ∀ b b', b.kind = b'.kind → stop b = stop b')
    (h : Frames R ps bs d.nodes bs' d'.nodes) :
    Follows R ps (Assembly.unwind stop bs d) (Assembly.unwind stop bs' d') := by
  induction bs generalizing bs' d d' with
  | nil =>
      cases h with
      | outermost h => exact .outermost h
  | cons b bs ih =>
      have hgiven := h
      cases h with
      | inside kind opener first h outer =>
          unfold Assembly.unwind
          rw [hstop _ _ kind]
          split
          · exact hgiven
          · exact ih (hgiven.giveUp hR)

theorem finish (h : Frames R ps (b :: bs) d.nodes (b' :: bs') d'.nodes) :
    Frames R ps bs (d.finish b).nodes bs' (d'.finish b').nodes := by
  cases h with
  | inside kind opener first h outer =>
      refine outer.append hR ?_
      -- the node that the block becomes is built from its branches
      rw [kind]
      generalize b.firstBranch = x at first
      generalize b'.firstBranch = x' at first
      cases hk : b'.kind with
      | loop path => exact hR.each _ _ _ _ path h
      | conditional condition =>
          cases first with
          | none => exact hR.when _ _ _ _ condition h
          | some hfirst => exact hR.choice _ _ _ _ condition hfirst.1 h

end Frames

/-! ## Steps -/

namespace Follows

variable {ps : List Node} {a a' : Assembly} {t t' : Token}

theorem addLeaf (h : Follows R ps a a') (ht : t.Alike t') (content : Leaf) :
    Follows R ps (a.addLeaf t content) (a'.addLeaf t' content) :=
  Frames.append hR h (hR.cons_leaf _ _ _ _ ht.raw content hR.nil)

theorem openBlock (h : Follows R ps a a') (ht : t.Alike t') (kind : BlockKind) :
    Follows R ps (a.openBlock t kind) (a'.openBlock t' kind) :=
  .inside rfl ht.raw .none hR.nil h

theorem addStray (h : Follows R ps a a') (ht : t.Alike t') :
    Follows R ps ⟨a.blocks, a.draft.addStray t⟩ ⟨a'.blocks, a'.draft.addStray t'⟩ :=
  Frames.append hR h (hR.cons_leaf _ _ _ _ ht.raw .literal hR.nil)

theorem divide (h : Follows R ps a a') (ht : t.Alike t') :
    Follows R ps (a.divide t) (a'.divide t') := by
  have hstray := addStray hR h ht
  obtain ⟨blocks, d⟩ := a
  obtain ⟨blocks', d'⟩ := a'
  unfold Follows at h
  cases h with
  | outermost => exact hstray
  | @inside b b' bs bs' ns ms kind opener first h outer =>
      obtain ⟨kind₁, o, before, first₁⟩ := b
      obtain ⟨kind₂, o', before', first₂⟩ := b'
      obtain rfl : kind₁ = kind₂ := kind
      -- only a conditional that is not divided yet can be divided
      cases kind₁ with
      | loop path => exact hstray
      | conditional condition =>
          cases first with
          | some _ => exact hstray
          | none => exact .inside rfl opener (.some ⟨h, ht.raw⟩) hR.nil outer

theorem closeBlock (h : Follows R ps a a') (ht : t.Alike t') (tag : Tag) :
    Follows R ps (a.closeBlock t tag) (a'.closeBlock t' tag) := by
  have hunwind := Frames.unwind hR (fun b => b.kind.closer == tag)
    (fun b b' hk => by rw [hk]) h
  unfold Assembly.closeBlock
  generalize Assembly.unwind _ a.blocks a.draft = x at hunwind
  generalize Assembly.unwind _ a'.blocks a'.draft = x' at hunwind
  obtain ⟨blocks, d⟩ := x
  obtain ⟨blocks', d'⟩ := x'
  have hframes := hunwind
  unfold Follows at hunwind
  cases hunwind with
  | outermost => exact addStray hR h ht
  | inside => exact Frames.finish hR hframes

/-- A token, in either place, keeps the second reading behind the first. -/
theorem step (h : Follows R ps a a') (ht : t.Alike t') :
    Follows R ps (a.step t) (a'.step t') := by
  unfold Assembly.step
  rw [ht.tag?]
  -- a leaf, an opening tag, the dividing tag and the closing tags
  cases t'.tag? with
  | none => exact addLeaf hR h ht .literal
  | some tag =>
      cases tag with
      | openIf condition => exact openBlock hR h ht (.conditional condition)
      | openEach path => exact openBlock hR h ht (.loop path)
      | otherwise => exact divide hR h ht
      | closeIf => exact closeBlock hR h ht .closeIf
      | closeEach => exact closeBlock hR h ht .closeEach
      | _ => exact addLeaf hR h ht _

theorem run (h : Follows R ps a a') {ts ts' : List Token}
    (hts : List.Forall₂ Token.Alike ts ts') : Follows R ps (a.run ts) (a'.run ts') := by
  induction hts generalizing a a' with
  | nil => exact h
  | cons ht _ ih => exact ih (step hR h ht)

/-- A state follows itself. -/
theorem refl_run (ts : List Token) :
    Follows R [] (Assembly.start.run ts) (Assembly.start.run ts) := by
  have hstart : Follows R [] .start .start := .outermost hR.nil
  exact run hR hstart (Token.alike_refl ts)

theorem complete (h : Follows R ps a a') : R (ps ++ a.complete.nodes) a'.complete.nodes := by
  have hunwind := Frames.unwind hR (fun _ => false) (fun _ _ _ => rfl) h
  unfold Follows at hunwind
  rw [Assembly.blocks_unwind_all, Assembly.blocks_unwind_all] at hunwind
  cases hunwind with
  | outermost h => exact h

end Follows

end

/-! ## Sequences compared by their outputs -/

section

variable (r : Renderer) (expand? : Option Expansion) (escape : Escape)

/-- Two sequences of nodes that have related outputs in every context. -/
def OutputsRelated (S : Output → Output → Prop) (ns ms : List Node) : Prop :=
  ∀ c, S (r.evalNodes expand? escape c ns) (r.evalNodes expand? escape c ms)

theorem compatible_outputsRelated {S : Output → Output → Prop} (hS : Output.Congruence S)
    (hrefl : ∀ o, S o o) : Compatible (OutputsRelated r expand? escape S) where
  nil _ := hS.empty
  append h h' c := by
    rw [r.evalNodes_append, r.evalNodes_append]
    exact hS.append (h c) (h' c)
  leaf _ _ _ _ _ _ _ := hrefl _
  when number number' span span' condition _ _ h c := by
    rw [Renderer.evalNodes_singleton, Renderer.evalNodes_singleton, Renderer.evalNode,
      Renderer.evalNode]
    split
    · exact h c
    · exact hS.empty
  choice number number' span span' condition _ _ _ _ h h' c := by
    rw [Renderer.evalNodes_singleton, Renderer.evalNodes_singleton, Renderer.evalNode,
      Renderer.evalNode]
    split
    · exact h c
    · exact h' c
  each number number' span span' path _ _ h c := by
    rw [Renderer.evalNodes_singleton, Renderer.evalNodes_singleton, Renderer.evalNode,
      Renderer.evalNode]
    exact hS.concat h _

end

/-! ## Templates in a row -/

namespace Renderer

variable (r : Renderer) (expand? : Option Expansion) (escape : Escape)

/-- The same output in every context is a relation that reading tokens keeps. -/
theorem compatible_outputsEq : Compatible (OutputsRelated r expand? escape Eq) :=
  compatible_outputsRelated r expand? escape Output.congruence_eq fun _ => rfl

/-- The place where tokens stand plays no part in the evaluation. -/
theorem evalNodes_draft_congr {ts us : List Token} (h : List.Forall₂ Token.Alike ts us)
    (c : Context) :
    r.evalNodes expand? escape c (Template.draft ts).nodes =
      r.evalNodes expand? escape c (Template.draft us).nodes := by
  have hR := r.compatible_outputsEq expand? escape
  have hstart : Follows (OutputsRelated r expand? escape Eq) [] .start .start := .outermost hR.nil
  exact (hstart.run hR h).complete hR c

/-- Where no block is open, the tokens before and those that follow are evaluated on their own. -/
theorem evalNodes_draft_append {ts : List Token} (h : (Assembly.start.run ts).blocks = [])
    (us : List Token) (c : Context) :
    r.evalNodes expand? escape c (Template.draft (ts ++ us)).nodes =
      r.evalNodes expand? escape c (Template.draft ts).nodes ++
        r.evalNodes expand? escape c (Template.draft us).nodes := by
  have hR := r.compatible_outputsEq expand? escape
  -- without open blocks the nodes read so far are the tree of the tokens before
  have hdraft : (Template.draft ts).nodes = (Assembly.start.run ts).draft.nodes := by
    rw [Template.draft, Assembly.complete, h]
    rfl
  have hfollows : Follows (OutputsRelated r expand? escape Eq) (Template.draft ts).nodes .start
      (Assembly.start.run ts) := by
    rw [Follows, h, hdraft]
    refine .outermost fun c => ?_
    show r.evalNodes expand? escape c ((Assembly.start.run ts).draft.nodes ++ []) = _
    rw [List.append_nil]
  have hsame := (hfollows.run hR (Token.alike_refl us)).complete hR c
  rw [← Assembly.run_append] at hsame
  rw [Template.draft, ← hsame, evalNodes_append]
  rfl

end Renderer

end PagePress
