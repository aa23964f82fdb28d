/-
  PagePress.Template.Node

  The tree of a template.

  A leaf stands for one token.  A block stands for its opening tag and holds
  what is inside it; the tags that divide and end it leave no node.  Every
  node has a number, in the order in which nodes are completed, and the span
  of its token.  Numbers have 32 bits, and the count starts again at zero
  after the greatest of them.
-/

import PagePress.Template.Token

namespace PagePress

/-- What a leaf of the tree stands for. -/
inductive Leaf where
  | literal
  | variable (path : VarPath)
  | particle (word : VarPath) (spec : Text)
  | pattern (category sect : Text) (word : Option VarPath)
  | partialMarker (name : Text)
  | comment (remark : Text)
  deriving DecidableEq

/-- A node of the tree of a template. -/
inductive Node where
  /-- A leaf, with the text of its token. -/
  | leaf (number : UInt32) (span : Span) (raw : Text) (content : Leaf)
  /-- A conditional without another branch. -/
  | when (number : UInt32) (span : Span) (condition : VarPath) (body : List Node)
  /-- A conditional with two branches. -/
  | choice (number : UInt32) (span : Span) (condition : VarPath) (yes no : List Node)
  /-- A loop. -/
  | each (number : UInt32) (span : Span) (path : VarPath) (body : List Node)

namespace Node

/-- The number of the node that is completed after so many others: the last 32 bits of how many
    they are. -/
def numberAt (place : Nat) : UInt32 := .ofNat place

theorem toNat_numberAt (place : Nat) : (numberAt place).toNat = place % UInt32.size :=
  UInt32.toNat_ofNat'

def number : Node → UInt32
  | leaf number .. => number
  | when number .. => number
  | choice number .. => number
  | each number .. => number

/-- The number of a node, as a place among the nodes. -/
def id (n : Node) : Nat := n.number.toNat

def span : Node → Span
  | leaf _ span .. => span
  | when _ span .. => span
  | choice _ span .. => span
  | each _ span .. => span

end Node

end PagePress
