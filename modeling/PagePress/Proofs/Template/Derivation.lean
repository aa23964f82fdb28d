/-
  PagePress.Proofs.Template.Derivation

  The grammar of balanced token sequences.

  A sequence is empty, or a leaf followed by a sequence, or a block followed
  by a sequence.  A conditional holds one sequence, or two with a dividing
  tag between them; a loop holds one.  `Derives ts ns` says that the tokens
  `ts` derive from this grammar and that the nodes `ns` are the derivation;
  the numbers of the nodes are left open.
-/

import PagePress.Template.Basic

namespace PagePress

/-! ## Leaves and block tags -/

/-- The leaf that a tag stands for, unless it opens, divides or ends a block. -/
def Tag.leaf? : Tag → Option Leaf
  | .variable path => some (.variable path)
  | .particle word spec => some (.particle word spec)
  | .pattern category sect word => some (.pattern category sect word)
  | .partialMarker name => some (.partialMarker name)
  | .comment remark => some (.comment remark)
  | .unknown => some .literal
  | .openIf _ | .otherwise | .closeIf | .openEach _ | .closeEach => none

namespace Token

/-- The leaf that a token stands for, unless it is a block tag. -/
def leaf? (t : Token) : Option Leaf :=
  match t.tag? with
  | none => some .literal
  | some tag => tag.leaf?

/-- A tag that opens, divides or ends a block. -/
def isBlockTag (t : Token) : Bool := t.leaf?.isNone

/-- The token as a tag of no known form, in the same place and with the same text. -/
def demote (t : Token) : Token := { t with tag? := some .unknown }

@[simp] theorem span_demote (t : Token) : t.demote.span = t.span := rfl

@[simp] theorem raw_demote (t : Token) : t.demote.raw = t.raw := rfl

@[simp] theorem leaf?_demote (t : Token) : t.demote.leaf? = some .literal := rfl

theorem isBlockTag_demote (t : Token) : t.demote.isBlockTag = false := rfl

theorem isBlockTag_of_tag? {t : Token} {tag : Tag} (h : t.tag? = some tag)
    (hl : tag.leaf? = none) : t.isBlockTag = true := by
  simp only [isBlockTag, leaf?, h, hl, Option.isNone_none]

end Token

/-! ## Derivations -/

/-- The tokens derive from the grammar of balanced sequences, and the nodes are the derivation. -/
inductive Derives : List Token → List Node → Prop where
  | nil : Derives [] []
  | leaf (number : UInt32) {t : Token} {content : Leaf} {ts : List Token} {ns : List Node}
      (ht : t.leaf? = some content) (rest : Derives ts ns) :
      Derives (t :: ts) (.leaf number t.span t.raw content :: ns)
  | when (number : UInt32) {o e : Token} {condition : VarPath} {us ts : List Token}
      {body ns : List Node}
      (ho : o.tag? = some (.openIf condition)) (hbody : Derives us body)
      (he : e.tag? = some .closeIf) (rest : Derives ts ns) :
      Derives (o :: (us ++ e :: ts)) (.when number o.span condition body :: ns)
  | choice (number : UInt32) {o d e : Token} {condition : VarPath} {us vs ts : List Token}
      {yes no ns : List Node}
      (ho : o.tag? = some (.openIf condition)) (hyes : Derives us yes)
      (hd : d.tag? = some .otherwise) (hno : Derives vs no)
      (he : e.tag? = some .closeIf) (rest : Derives ts ns) :
      Derives (o :: (us ++ d :: (vs ++ e :: ts))) (.choice number o.span condition yes no :: ns)
  | each (number : UInt32) {o e : Token} {path : VarPath} {us ts : List Token} {body ns : List Node}
      (ho : o.tag? = some (.openEach path)) (hbody : Derives us body)
      (he : e.tag? = some .closeEach) (rest : Derives ts ns) :
      Derives (o :: (us ++ e :: ts)) (.each number o.span path body :: ns)

namespace Derives

theorem append {ts us : List Token} {ns ms : List Node} (hn : Derives ts ns)
    (hm : Derives us ms) : Derives (ts ++ us) (ns ++ ms) := by
  -- only the last sequence of a derivation grows, so the bodies of its blocks play no part
  induction hn with
  | nil => exact hm
  | leaf number ht _ ih => exact .leaf number ht ih
  | when number ho hbody he _ _ ih =>
      simp only [List.cons_append, List.append_assoc]
      exact .when number ho hbody he ih
  | choice number ho hyes hd hno he _ _ _ ih =>
      simp only [List.cons_append, List.append_assoc]
      exact .choice number ho hyes hd hno he ih
  | each number ho hbody he _ _ ih =>
      simp only [List.cons_append, List.append_assoc]
      exact .each number ho hbody he ih

theorem singleton (number : UInt32) {t : Token} {content : Leaf} (h : t.leaf? = some content) :
    Derives [t] [.leaf number t.span t.raw content] :=
  .leaf number h .nil

end Derives

/-! ## Trees up to numbers -/

namespace Node

mutual

/-- A node with all numbers in it forgotten. -/
def unnumbered : Node → Node
  | .leaf _ span raw content => .leaf 0 span raw content
  | .when _ span condition body => .when 0 span condition (unnumberedAll body)
  | .choice _ span condition yes no =>
    .choice 0 span condition (unnumberedAll yes) (unnumberedAll no)
  | .each _ span path body => .each 0 span path (unnumberedAll body)

/-- Nodes with all numbers in them forgotten. -/
def unnumberedAll : List Node → List Node
  | [] => []
  | n :: ns => n.unnumbered :: unnumberedAll ns

end

theorem unnumberedAll_append (ns ms : List Node) :
    unnumberedAll (ns ++ ms) = unnumberedAll ns ++ unnumberedAll ms := by
  induction ns with
  | nil => rfl
  | cons n ns ih => rw [List.cons_append, unnumberedAll, ih, unnumberedAll, List.cons_append]

end Node

open Node (unnumbered unnumberedAll)

/-- The numbers in a derivation do not matter. -/
theorem Derives.renumber {ts : List Token} {ns ms : List Node} (h : Derives ts ns)
    (heq : unnumberedAll ns = unnumberedAll ms) : Derives ts ms := by
  -- the two trees have the same shape, so the second is taken apart along the derivation
  induction h generalizing ms with
  | nil =>
      cases ms with
      | nil => exact .nil
      | cons m ms => simp only [unnumberedAll, reduceCtorEq] at heq
  | leaf number ht _ ih =>
      cases ms with
      | nil => simp only [unnumberedAll, reduceCtorEq] at heq
      | cons m ms =>
          simp only [unnumberedAll, List.cons.injEq] at heq
          cases m <;> simp only [unnumbered, Node.leaf.injEq, reduceCtorEq, false_and] at heq
          obtain ⟨⟨-, rfl, rfl, rfl⟩, heq⟩ := heq
          exact .leaf _ ht (ih heq)
  | when number ho hbody he _ ihbody ih =>
      cases ms with
      | nil => simp only [unnumberedAll, reduceCtorEq] at heq
      | cons m ms =>
          simp only [unnumberedAll, List.cons.injEq] at heq
          cases m <;> simp only [unnumbered, Node.when.injEq, reduceCtorEq, false_and] at heq
          obtain ⟨⟨-, rfl, rfl, hb⟩, heq⟩ := heq
          exact .when _ ho (ihbody hb) he (ih heq)
  | choice number ho hyes hd hno he _ ihyes ihno ih =>
      cases ms with
      | nil => simp only [unnumberedAll, reduceCtorEq] at heq
      | cons m ms =>
          simp only [unnumberedAll, List.cons.injEq] at heq
          cases m <;> simp only [unnumbered, Node.choice.injEq, reduceCtorEq, false_and] at heq
          obtain ⟨⟨-, rfl, rfl, hy, hn⟩, heq⟩ := heq
          exact .choice _ ho (ihyes hy) hd (ihno hn) he (ih heq)
  | each number ho hbody he _ ihbody ih =>
      cases ms with
      | nil => simp only [unnumberedAll, reduceCtorEq] at heq
      | cons m ms =>
          simp only [unnumberedAll, List.cons.injEq] at heq
          cases m <;> simp only [unnumbered, Node.each.injEq, reduceCtorEq, false_and] at heq
          obtain ⟨⟨-, rfl, rfl, hb⟩, heq⟩ := heq
          exact .each _ ho (ihbody hb) he (ih heq)

end PagePress
