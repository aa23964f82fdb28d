/-
  PagePress.Proofs.Template.Preorder

  The nodes of a tree in the order of their tokens.

  `Node.preorderAll` lists every node of a tree, a block before what it holds.
  The nodes of a derivation stand in this list in the order of the tokens that
  they come from, and the tokens without a node are those that divide or end a
  block (`Derives.standFor_preorderAll`); so the kinds of the nodes tell how
  many tokens there were (`Derives.length_eq`).
-/

import Mathlib.Data.List.Forall2
import PagePress.Proofs.Template.Derivation

namespace PagePress

namespace Node

/-! ## Lists of nodes -/

/-- The nodes directly inside a block. -/
def children : Node → List Node
  | .leaf .. => []
  | .when _ _ _ body => body
  | .choice _ _ _ yes no => yes ++ no
  | .each _ _ _ body => body

mutual

/-- A node and all nodes inside it. -/
def preorder : Node → List Node
  | .leaf number span raw content => [.leaf number span raw content]
  | .when number span condition body => .when number span condition body :: preorderAll body
  | .choice number span condition yes no =>
    .choice number span condition yes no :: (preorderAll yes ++ preorderAll no)
  | .each number span path body => .each number span path body :: preorderAll body

/-- Some nodes and all nodes inside them. -/
def preorderAll : List Node → List Node
  | [] => []
  | n :: ns => n.preorder ++ preorderAll ns

end

@[simp] theorem preorderAll_nil : preorderAll [] = [] := rfl

theorem preorderAll_append (ns ms : List Node) :
    preorderAll (ns ++ ms) = preorderAll ns ++ preorderAll ms := by
  induction ns with
  | nil => rfl
  | cons n ns ih => rw [List.cons_append, preorderAll, ih, preorderAll, List.append_assoc]

theorem preorder_eq (n : Node) : n.preorder = n :: preorderAll n.children := by
  cases n with
  | leaf number span raw content => rfl
  | when number span condition body => rw [preorder, children]
  | choice number span condition yes no => rw [preorder, children, preorderAll_append]
  | each number span path body => rw [preorder, children]

theorem preorderAll_cons (n : Node) (ns : List Node) :
    preorderAll (n :: ns) = n :: (preorderAll n.children ++ preorderAll ns) := by
  rw [preorderAll, preorder_eq, List.cons_append]

theorem mem_preorderAll {n : Node} {ns : List Node} (h : n ∈ ns) : n ∈ preorderAll ns := by
  induction ns with
  | nil => exact absurd h List.not_mem_nil
  | cons m ns ih =>
      rw [preorderAll_cons]
      rcases List.mem_cons.1 h with rfl | h
      · exact List.mem_cons_self
      · exact List.mem_cons_of_mem m (List.mem_append_right _ (ih h))

/-- The nodes at the top of two forests and those inside blocks, put together forest by forest. -/
theorem perm_append_flatMap {ns ms xs ys : List Node}
    (hn : (ns ++ xs.flatMap children).Perm xs) (hm : (ms ++ ys.flatMap children).Perm ys) :
    (ns ++ ms ++ (xs ++ ys).flatMap children).Perm (xs ++ ys) := by
  have hswap := (List.perm_append_comm_assoc ms (xs.flatMap children)
    (ys.flatMap children)).append_left ns
  rw [List.flatMap_append, List.append_assoc]
  refine hswap.trans ?_
  rw [← List.append_assoc]
  exact hn.append hm

mutual

theorem perm_preorderAll_children (n : Node) :
    (n.children ++ (preorderAll n.children).flatMap children).Perm (preorderAll n.children) := by
  cases n with
  | leaf number span raw content => exact .nil
  | when number span condition body => exact perm_preorderAll body
  | choice number span condition yes no =>
      rw [children, preorderAll_append]
      exact perm_append_flatMap (perm_preorderAll yes) (perm_preorderAll no)
  | each number span path body => exact perm_preorderAll body

/-- Every node of a tree is listed once: at the top, or in the block that it is directly inside. -/
theorem perm_preorderAll (ns : List Node) :
    (ns ++ (preorderAll ns).flatMap children).Perm (preorderAll ns) := by
  cases ns with
  | nil => exact .nil
  | cons n ns =>
      have hinside := perm_append_flatMap (perm_preorderAll_children n) (perm_preorderAll ns)
      have hfront : (ns ++ n.children).Perm (n.children ++ ns) := List.perm_append_comm
      rw [preorderAll_cons, List.flatMap_cons, List.cons_append, ← List.append_assoc]
      exact ((hfront.append_right _).trans hinside).cons n

end

/-! ## Kinds of nodes -/

def isBlock : Node → Bool
  | .leaf .. => false
  | _ => true

def isLoop : Node → Bool
  | .each .. => true
  | _ => false

/-- A conditional with one branch or two. -/
def isConditional : Node → Bool
  | .when .. => true
  | .choice .. => true
  | _ => false

/-- A conditional with two branches. -/
def isDivided : Node → Bool
  | .choice .. => true
  | _ => false

end Node

open Node (preorderAll preorderAll_nil preorderAll_cons preorderAll_append)

/-! ## Tokens and their nodes -/

/-- A tag that has a node of its own: any but those that divide or end a block. -/
def Tag.hasNode : Tag → Bool
  | .otherwise | .closeIf | .closeEach => false
  | _ => true

namespace Token

/-- A token that has a node of its own. -/
def hasNode (t : Token) : Bool := t.tag?.all Tag.hasNode

theorem hasNode_of_tag? {t : Token} {tag : Tag} (h : t.tag? = some tag) :
    t.hasNode = tag.hasNode := by
  rw [hasNode, h, Option.all_some]

theorem not_hasNode_of_tag? {t : Token} {tag : Tag} (h : t.tag? = some tag)
    (hn : tag.hasNode = false) : ¬ t.hasNode = true := by
  rw [hasNode_of_tag? h, hn]
  exact Bool.false_ne_true

theorem hasNode_of_leaf? {t : Token} {content : Leaf} (h : t.leaf? = some content) :
    t.hasNode = true := by
  cases ht : t.tag? with
  | none => rw [hasNode, ht, Option.all_none]
  | some tag =>
      rw [hasNode_of_tag? ht]
      rw [leaf?, ht] at h
      cases tag with
      | otherwise => exact absurd h.symm (Option.some_ne_none _)
      | closeIf => exact absurd h.symm (Option.some_ne_none _)
      | closeEach => exact absurd h.symm (Option.some_ne_none _)
      | _ => rfl

end Token

/-- A node comes from a token: it has the place of the token, and a leaf its text as well. -/
inductive Node.StandsFor : Node → Token → Prop where
  | leaf (number : UInt32) {t : Token} {content : Leaf} (h : t.leaf? = some content) :
      StandsFor (.leaf number t.span t.raw content) t
  | block {n : Node} {t : Token} (h : n.span = t.span) (hblock : n.isBlock = true) : StandsFor n t

namespace Node.StandsFor

variable {ns : List Node} {ts : List Token}

theorem span_eq {n : Node} {t : Token} (h : n.StandsFor t) : n.span = t.span := by
  cases h with
  | leaf number ht => rfl
  | block h _ => exact h

theorem map_span (h : List.Forall₂ StandsFor ns ts) : ns.map Node.span = ts.map Token.span := by
  induction h with
  | nil => rfl
  | cons hn _ ih => rw [List.map_cons, List.map_cons, hn.span_eq, ih]

theorem exists_token (h : List.Forall₂ StandsFor ns ts) {n : Node} (hn : n ∈ ns) :
    ∃ t ∈ ts, n.StandsFor t := by
  induction h with
  | nil => exact absurd hn List.not_mem_nil
  | @cons m u _ _ hm _ ih =>
      rcases List.mem_cons.1 hn with rfl | hn
      · exact ⟨u, List.mem_cons_self, hm⟩
      · obtain ⟨t, ht, hstand⟩ := ih hn
        exact ⟨t, List.mem_cons_of_mem u ht, hstand⟩

end Node.StandsFor

namespace Derives

variable {ts : List Token} {ns : List Node}

/-- The nodes of a derivation stand in the order of their tokens, and only the tags that divide or
    end a block have none. -/
theorem standFor_preorderAll (h : Derives ts ns) :
    List.Forall₂ Node.StandsFor (preorderAll ns) (ts.filter Token.hasNode) := by
  induction h with
  | nil => exact .nil
  | leaf number ht _ ih =>
      rw [preorderAll_cons, List.filter_cons_of_pos (Token.hasNode_of_leaf? ht)]
      exact .cons (.leaf number ht) ih
  | @when number o e condition us ts body ns ho _ he _ ihbody ih =>
      have hopen : o.hasNode = true := Token.hasNode_of_tag? ho
      have hclose : ¬ e.hasNode = true := Token.not_hasNode_of_tag? he rfl
      rw [preorderAll_cons, List.filter_cons_of_pos hopen, List.filter_append,
        List.filter_cons_of_neg hclose]
      exact .cons (.block rfl rfl) (List.rel_append ihbody ih)
  | @choice number o d e condition us vs ts yes no ns ho _ hd _ he _ ihyes ihno ih =>
      have hopen : o.hasNode = true := Token.hasNode_of_tag? ho
      have hdivide : ¬ d.hasNode = true := Token.not_hasNode_of_tag? hd rfl
      have hclose : ¬ e.hasNode = true := Token.not_hasNode_of_tag? he rfl
      rw [preorderAll_cons, Node.children, preorderAll_append, List.append_assoc,
        List.filter_cons_of_pos hopen, List.filter_append, List.filter_cons_of_neg hdivide,
        List.filter_append, List.filter_cons_of_neg hclose]
      exact .cons (.block rfl rfl) (List.rel_append ihyes (List.rel_append ihno ih))
  | @each number o e path us ts body ns ho _ he _ ihbody ih =>
      have hopen : o.hasNode = true := Token.hasNode_of_tag? ho
      have hclose : ¬ e.hasNode = true := Token.not_hasNode_of_tag? he rfl
      rw [preorderAll_cons, List.filter_cons_of_pos hopen, List.filter_append,
        List.filter_cons_of_neg hclose]
      exact .cons (.block rfl rfl) (List.rel_append ihbody ih)

/-- A block has one token more than it has nodes for each branch that it holds. -/
theorem length_eq (h : Derives ts ns) :
    ts.length = (preorderAll ns).length + (preorderAll ns).countP Node.isLoop +
      (preorderAll ns).countP Node.isConditional + (preorderAll ns).countP Node.isDivided := by
  induction h with
  | nil => rfl
  | leaf number ht _ ih =>
      simp only [preorderAll_cons, preorderAll_nil, Node.children, List.nil_append,
        List.length_cons, List.countP_cons, Node.isLoop, Node.isConditional, Node.isDivided,
        Bool.false_eq_true, if_false]
      omega
  | when number ho _ he _ ihbody ih =>
      simp only [preorderAll_cons, Node.children, List.length_cons, List.length_append,
        List.countP_cons, List.countP_append, Node.isLoop, Node.isConditional, Node.isDivided,
        Bool.false_eq_true, if_false, if_true]
      omega
  | choice number ho _ hd _ he _ ihyes ihno ih =>
      simp only [preorderAll_cons, Node.children, preorderAll_append, List.length_cons,
        List.length_append, List.countP_cons, List.countP_append, Node.isLoop, Node.isConditional,
        Node.isDivided, Bool.false_eq_true, if_false, if_true]
      omega
  | each number ho _ he _ ihbody ih =>
      simp only [preorderAll_cons, Node.children, List.length_cons, List.length_append,
        List.countP_cons, List.countP_append, Node.isLoop, Node.isConditional, Node.isDivided,
        Bool.false_eq_true, if_false, if_true]
      omega

end Derives

end PagePress
