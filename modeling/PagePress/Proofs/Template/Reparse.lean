/-
  PagePress.Proofs.Template.Reparse

  Reading a template again with its unbalanced tags taken as text.

  The literal leaves of a tree tell which block tags were settled as text:
  those whose span is the span of such a leaf.  Reading the tokens with just
  these turned into text gives the same tree and no report.
-/

import PagePress.Proofs.Template.Place
import PagePress.Proofs.Template.Recovery

namespace PagePress

open Node (unnumberedAll)

/-! ## Literal leaves -/

namespace Node

mutual

/-- The spans of the literal leaves in a node, first to last. -/
def literalSpans : Node → List Span
  | .leaf _ span _ .literal => [span]
  | .leaf .. => []
  | .when _ _ _ body => literalSpansAll body
  | .choice _ _ _ yes no => literalSpansAll yes ++ literalSpansAll no
  | .each _ _ _ body => literalSpansAll body

/-- The spans of the literal leaves in some nodes, first to last. -/
def literalSpansAll : List Node → List Span
  | [] => []
  | n :: ns => n.literalSpans ++ literalSpansAll ns

end

end Node

open Node (literalSpans literalSpansAll)

namespace Token

/-- A token that becomes a literal leaf. -/
def isLiteral (t : Token) : Bool := t.leaf? == some .literal

theorem isLiteral_of_tag? {t : Token} {tag : Tag} (h : t.tag? = some tag)
    (hl : tag.leaf? = none) : t.isLiteral = false := by
  simp only [isLiteral, leaf?, h, hl, reduceBEq]

end Token

/-- The literal leaves of a derivation are those of its literal tokens, in the same order. -/
theorem Derives.literalSpansAll_eq {ts : List Token} {ns : List Node} (h : Derives ts ns) :
    literalSpansAll ns = (ts.filter Token.isLiteral).map Token.span := by
  -- the tags of a block leave no leaf and are no literal tokens
  induction h with
  | nil => rfl
  | @leaf number t content ts ns ht _ ih =>
      rw [literalSpansAll, ih, List.filter_cons, Token.isLiteral, ht]
      cases content <;> rfl
  | when number ho _ he _ ihbody ih =>
      rw [literalSpansAll, literalSpans, ihbody, ih]
      simp only [List.filter_cons, List.filter_append, List.map_append,
        Token.isLiteral_of_tag? ho rfl, Token.isLiteral_of_tag? he rfl, Bool.false_eq_true,
        if_false]
  | choice number ho _ hd _ he _ ihyes ihno ih =>
      rw [literalSpansAll, literalSpans, ihyes, ihno, ih]
      simp only [List.filter_cons, List.filter_append, List.map_append, List.append_assoc,
        Token.isLiteral_of_tag? ho rfl, Token.isLiteral_of_tag? hd rfl,
        Token.isLiteral_of_tag? he rfl, Bool.false_eq_true, if_false]
  | each number ho _ he _ ihbody ih =>
      rw [literalSpansAll, literalSpans, ihbody, ih]
      simp only [List.filter_cons, List.filter_append, List.map_append,
        Token.isLiteral_of_tag? ho rfl, Token.isLiteral_of_tag? he rfl, Bool.false_eq_true,
        if_false]

/-! ## Settled tokens -/

/-- The token taken as text if it is a block tag at one of some spans. -/
def Token.settle (spans : List Span) (t : Token) : Token :=
  if t.isBlockTag = true ∧ t.span ∈ spans then t.demote else t

theorem Token.settle_place (spans : List Span) (t : Token) :
    (t.settle spans).span = t.span ∧ (t.settle spans).raw = t.raw := by
  unfold settle
  split
  · exact ⟨t.span_demote, t.raw_demote⟩
  · exact ⟨rfl, rfl⟩

namespace Settles

theorem map_span {ts us : List Token} (h : Settles ts us) :
    us.map Token.span = ts.map Token.span := by
  induction h with
  | nil => rfl
  | keep t _ ih => rw [List.map_cons, List.map_cons, ih]
  | demote ht _ ih => rw [List.map_cons, List.map_cons, ih, Token.span_demote]

/-- Spans that hold all literal tokens and no block tag of the settled tokens tell which tags were
    settled. -/
theorem eq_map_settle {ts us : List Token} (h : Settles ts us) {spans : List Span}
    (hlit : ∀ u ∈ us, u.isLiteral = true → u.span ∈ spans)
    (hblock : ∀ u ∈ us, u.isBlockTag = true → u.span ∉ spans) :
    us = ts.map (Token.settle spans) := by
  induction h with
  | nil => rfl
  | @keep t ts us _ ih =>
      have ht : Token.settle spans t = t := if_neg fun hs => hblock t List.mem_cons_self hs.1 hs.2
      rw [List.map_cons, ht, ← ih (fun u hu => hlit u (List.mem_cons_of_mem _ hu))
        (fun u hu => hblock u (List.mem_cons_of_mem _ hu))]
  | @demote t ts us hb _ ih =>
      have ht : Token.settle spans t = t.demote :=
        if_pos ⟨hb, hlit t.demote List.mem_cons_self rfl⟩
      rw [List.map_cons, ht, ← ih (fun u hu => hlit u (List.mem_cons_of_mem _ hu))
        (fun u hu => hblock u (List.mem_cons_of_mem _ hu))]

end Settles

namespace Template

/-- The tokens that a tree derives from are found again from its literal leaves. -/
theorem settled_eq_map_settle {ts us : List Token} {ns : List Node} (hs : Settles ts us)
    (hd : Derives us ns) (hspans : (ts.map Token.span).Nodup) :
    us = ts.map (Token.settle (literalSpansAll ns)) := by
  rw [← hs.map_span] at hspans
  rw [hd.literalSpansAll_eq]
  -- the literal leaves have the spans of the literal tokens, and no two tokens share a span
  refine hs.eq_map_settle (fun u hu hl => ?_) (fun u hu hb hmem => ?_)
  · exact List.mem_map_of_mem (List.mem_filter.2 ⟨hu, hl⟩)
  · -- a literal token with the span of a block tag would be that tag
    obtain ⟨v, hv, hspan⟩ := List.mem_map.1 hmem
    obtain ⟨hv, hl⟩ := List.mem_filter.1 hv
    obtain rfl := List.inj_on_of_nodup_map hspans hv hu hspan
    rw [Token.isBlockTag, eq_of_beq hl] at hb
    exact absurd hb Bool.false_ne_true

/-- The tokens of a template with those block tags taken as text that became literal leaves. -/
def settled (t : Template) : List Token :=
  (Token.ofText t.source).map (Token.settle (literalSpansAll t.nodes))

/-- A settled token stands in the template as it was read. -/
theorem holds_of_mem_settled {t : Template} {k : Token} (h : k ∈ t.settled) :
    k.span.Holds t.source k.raw := by
  obtain ⟨u, hu, rfl⟩ := List.mem_map.1 h
  have hplace := u.settle_place (literalSpansAll t.nodes)
  rw [hplace.1, hplace.2]
  exact Token.holds_of_mem_ofText hu

/-- A tree is the derivation of the settled tokens: every dividing or closing tag left among them
    belongs to a block of the tree. -/
theorem derives_settled (source : Text) :
    Derives (compile source).settled (compile source).nodes := by
  obtain ⟨us, hsettles, hderives, -⟩ := draft_settles (Token.ofText source)
  have heq := settled_eq_map_settle hsettles hderives (Token.nodup_span_ofText source)
  rw [heq] at hderives
  exact hderives

/-- Taking as text just the block tags that became literal leaves, the tokens of a template read
    without a report and give the same tree, up to the numbers of its nodes. -/
theorem reparse_settled (source : Text) :
    let literal := literalSpansAll (compile source).nodes
    let again := draft ((Token.ofText source).map (Token.settle literal))
    again.warnings = [] ∧ unnumberedAll again.nodes = unnumberedAll (compile source).nodes := by
  obtain ⟨us, hsettles, hderives, -⟩ := draft_settles (Token.ofText source)
  have heq := settled_eq_map_settle hsettles hderives (Token.nodup_span_ofText source)
  rw [heq] at hderives
  exact draft_of_derives hderives

end Template

end PagePress
