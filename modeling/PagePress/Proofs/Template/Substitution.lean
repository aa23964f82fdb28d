/-
  PagePress.Proofs.Template.Substitution

  References to patterns as macros.

  Among the tokens of a template a leaf can be replaced by a balanced
  sequence whose output is related to that of the leaf; the whole output is
  then related in the same way, whatever stands around the leaf
  (`Renderer.evalNodes_draft_replace`).  A reference to a pattern without a
  word and the tokens of the pattern that is chosen are such a pair as long as
  no pattern is cut off: where it is referred to a pattern is evaluated with
  one level less, and levels only cut (`Renderer.evalTokens_inline`).
-/

import PagePress.Proofs.Template.Depth

namespace PagePress

open Node (unnumberedAll unnumberedAll_append)
open Output (SameUncut congruence_sameUncut)

/-! ## Balanced tokens in the place of a leaf -/

/-- The innermost sequence of the second state is replaced by one that is related to as much. -/
theorem Frames.replace {R : List Node → List Node → Prop} {ps ns ms xs : List Node}
    {bs bs' : List Block} (h : Frames R ps bs ns bs' ms) (himp : ∀ ys, R ys ms → R ys xs) :
    Frames R ps bs ns bs' xs := by
  cases h with
  | outermost h => exact .outermost (himp _ h)
  | inside kind opener first h outer => exact .inside kind opener first (himp _ h) outer

namespace Renderer

/-- A leaf of a template is replaced by balanced tokens, and its output by a related one. -/
theorem evalNodes_draft_replace (r : Renderer) (expand? : Option Expansion) (escape : Escape)
    {S : Output → Output → Prop} (hS : Output.Congruence S) (hrefl : ∀ o, S o o) {k : Token}
    {content : Leaf} (hk : k.leaf? = some content) {xs : List Token} {ns : List Node}
    (hxs : Derives xs ns)
    (hleaf : ∀ c, S (r.evalLeaf expand? escape c k.raw content) (r.evalNodes expand? escape c ns))
    (ts us : List Token) (c : Context) :
    S (r.evalNodes expand? escape c (Template.draft (ts ++ [k] ++ us)).nodes)
      (r.evalNodes expand? escape c (Template.draft (ts ++ xs ++ us)).nodes) := by
  have hR := compatible_outputsRelated r expand? escape hS hrefl
  have hbefore := Follows.refl_run hR ts
  generalize hrun : Assembly.start.run ts = a at hbefore
  have hread := Assembly.run_derives hxs a
  have hpair : OutputsRelated r expand? escape S
      [.leaf (Node.numberAt a.draft.count) k.span k.raw content] ns := by
    intro c
    rw [evalNodes_singleton, evalNode]
    exact hleaf c
  -- the leaf and the tokens leave the same blocks open, with related sequences inside
  have hreplaced : Follows (OutputsRelated r expand? escape S) [] (a.step k) (a.run xs) := by
    rw [Assembly.step_leaf hk, Follows, hread.blocks]
    refine (Frames.append hR hbefore hpair).replace fun ys hys c => ?_
    have hnumbers : unnumberedAll (a.run xs).draft.nodes = unnumberedAll (a.draft.nodes ++ ns) := by
      rw [unnumberedAll_append]
      exact hread.nodes
    rw [r.evalNodes_congr expand? escape c hnumbers]
    exact hys c
  have hend := (hreplaced.run hR (Token.alike_refl us)).complete hR c
  rw [Template.draft, Template.draft, Assembly.run_append, Assembly.run_append,
    Assembly.run_append, Assembly.run_append, hrun]
  exact hend

/-! ## Patterns -/

section

variable (r : Renderer) {category sect source : Text}

/-- A pattern that was chosen is evaluated as if its nodes stood in place of the reference, unless
    a pattern is cut off. -/
theorem sameUncut_pattern (hselect : r.selectPattern? category sect none = some source)
    (hbalanced : (Template.compile source).warnings = []) (levels : Nat) (c : Context)
    (raw : Text) :
    SameUncut (r.evalPattern (r.expansion levels) .verbatim c raw category sect none)
      (r.evalNodes (r.expansion levels) .verbatim c (Template.compile source).nodes) := by
  intro huncut
  rw [evalPattern, Option.bind_none, ← selectPattern?, hselect] at huncut ⊢
  cases levels with
  | zero => exact absurd huncut (Output.not_uncut_nestedTooDeep _ _ _)
  | succ levels =>
      -- one level less inside the pattern, and the same as no pattern is cut off there
      have hinside : r.evalTemplate (r.expansion levels) .verbatim c (.compile source) =
          r.evalNodes (r.expansion levels) .verbatim c (Template.compile source).nodes := by
        rw [evalTemplate, hbalanced]
        rfl
      have hsame : SameUncut
          (r.evalNodes (r.expansion levels) .verbatim c (Template.compile source).nodes)
          ((r.withLimit r.depthLimit).evalNodes
            ((r.withLimit r.depthLimit).expansion (levels + 1)) .verbatim c
            (Template.compile source).nodes) :=
        sameUncut_nodes (r.deeper_expansion r.depthLimit (Nat.le_succ levels)) _ c
      show _ = r.evalTemplate (r.expansion levels) .verbatim c (.compile source)
      rw [hinside]
      apply hsame
      rw [← hinside]
      exact huncut

/-- The output of some tokens when patterns may be nested a number of levels deep. -/
def evalTokens (levels : Nat) (c : Context) (ts : List Token) : Output :=
  r.evalNodes (r.expansion levels) .verbatim c (Template.draft ts).nodes

/-- A reference to a pattern without a word is a macro: unless a pattern is cut off, the tokens of
    the balanced pattern in its place give the same output, whatever stands before and behind. -/
theorem evalTokens_inline (hselect : r.selectPattern? category sect none = some source)
    (hbalanced : (Template.compile source).warnings = []) {k : Token}
    (hk : k.tag? = some (.pattern category sect none)) (ts us : List Token) (levels : Nat)
    (c : Context) (huncut : (r.evalTokens levels c (ts ++ [k] ++ us)).Uncut) :
    r.evalTokens levels c (ts ++ Token.ofText source ++ us) =
      r.evalTokens levels c (ts ++ [k] ++ us) := by
  have hleaf : k.leaf? = some (.pattern category sect none) := by
    rw [Token.leaf?, hk]
    rfl
  obtain ⟨xs, -, hderives, hclean⟩ := Template.draft_settles (Token.ofText source)
  obtain rfl : xs = Token.ofText source := hclean hbalanced
  have hpattern := fun c => r.sameUncut_pattern hselect hbalanced levels c k.raw
  exact r.evalNodes_draft_replace _ _ congruence_sameUncut (fun _ _ => rfl) hleaf hderives hpattern
    ts us c huncut

end

/-- A pattern in the first branch of a conditional that stands in one without an end. -/
theorem evalTokens_inline_branch :
    let r : Renderer := ⟨⟨[], [(['a'], [(['b'], [braced ['y']])])]⟩, 0, 1⟩
    let c : Context := ⟨[(['x'], .bool true)], []⟩
    let k : Token := ⟨braced "pattern a b".toList, ⟨18, 33⟩, some (.pattern ['a'] ['b'] none)⟩
    let ts := Token.ofText (braced "#if x".toList ++ braced "#if x".toList)
    let us := Token.ofText (braced "else".toList ++ braced "/if".toList)
    r.selectPattern? ['a'] ['b'] none = some (braced ['y']) ∧
      (Template.compile (braced ['y'])).warnings = [] ∧
        k.tag? = some (.pattern ['a'] ['b'] none) ∧
          (r.evalTokens 1 c (ts ++ [k] ++ us)).Uncut ∧
            r.evalTokens 1 c (ts ++ Token.ofText (braced ['y']) ++ us) =
              r.evalTokens 1 c (ts ++ [k] ++ us) := by
  have hselect : Renderer.selectPattern? ⟨⟨[], [(['a'], [(['b'], [braced ['y']])])]⟩, 0, 1⟩
      ['a'] ['b'] none = some (braced ['y']) := by decide +kernel
  have hbalanced : (Template.compile (braced ['y'])).warnings = [] := by decide +kernel
  have hcodes : (Renderer.evalTokens ⟨⟨[], [(['a'], [(['b'], [braced ['y']])])]⟩, 0, 1⟩ 1
      ⟨[(['x'], .bool true)], []⟩
      (Token.ofText (braced "#if x".toList ++ braced "#if x".toList) ++
        [⟨braced "pattern a b".toList, ⟨18, 33⟩, some (.pattern ['a'] ['b'] none)⟩] ++
          Token.ofText (braced "else".toList ++ braced "/if".toList))).warnings.map
        Warning.code = ["L-1-2".toList] := by decide +kernel
  have huncut := Output.uncut_iff.2 (hcodes ▸ (by decide : "L-1-5".toList ∉ ["L-1-2".toList]))
  intro r c k ts us
  exact ⟨hselect, hbalanced, rfl, huncut,
    r.evalTokens_inline hselect hbalanced rfl ts us 1 c huncut⟩

end Renderer

end PagePress
