/-
  PagePress.Template.Basic

  Templates, and how tokens are put together into a tree.

  Tokens are taken one by one.  Openers start a block inside the innermost
  open one.  A closing tag ends the innermost block of its kind, and blocks
  opened inside that one without an end are given up: their opening tag, and
  the tag that divides them, become literal text among what they held.  A
  dividing or closing tag without a block it could belong to becomes literal
  text as well.  Blocks that are still open at the end are given up.  Every
  tag that becomes literal text in these ways is reported, a given-up block
  once.
-/

import PagePress.Template.Node
import PagePress.Template.Warning

namespace PagePress

/-- A block that is still open. -/
inductive BlockKind where
  | conditional (condition : VarPath)
  | loop (path : VarPath)
  deriving DecidableEq

/-- The tag that ends a block. -/
def BlockKind.closer : BlockKind → Tag
  | .conditional _ => .closeIf
  | .loop _ => .closeEach

def BlockKind.closerText : BlockKind → Text
  | .conditional _ => braced "/if"
  | .loop _ => braced "/each"

structure Block where
  kind : BlockKind
  opener : Token
  /-- The nodes before the block in the sequence it stands in. -/
  before : List Node
  /-- The first branch and the dividing tag, once that has been read. -/
  firstBranch : Option (List Node × Token)

/-- A sequence of nodes in the making, with what is kept for the whole template. -/
structure Draft where
  nodes : List Node
  /-- How many nodes there are altogether; the next node is numbered by it. -/
  count : Nat
  warnings : List Warning

namespace Draft

def addLeaf (d : Draft) (t : Token) (content : Leaf) : Draft :=
  let leaf := Node.leaf (Node.numberAt d.count) t.span t.raw content
  { d with nodes := d.nodes ++ [leaf], count := d.count + 1 }

def warn (d : Draft) (w : Warning) : Draft := { d with warnings := d.warnings ++ [w] }

/-- Adds a tag that belongs to no block as literal text. -/
def addStray (d : Draft) (t : Token) : Draft :=
  (d.warn (.neverOpened t.raw t.span.start)).addLeaf t .literal

/-- Gives up a block: what was read in it, and its tags as literal text, join the sequence that
    the block stands in. -/
def giveUp (d : Draft) (b : Block) : Draft :=
  -- The tags are numbered after everything that was read inside the block.
  let opener := Node.leaf (Node.numberAt d.count) b.opener.span b.opener.raw .literal
  let d := d.warn (.neverClosed b.opener.raw b.kind.closerText b.opener.span.start)
  match b.firstBranch with
  | none => { d with nodes := b.before ++ opener :: d.nodes, count := d.count + 1 }
  | some (first, divider) =>
    let middle := Node.leaf (Node.numberAt (d.count + 1)) divider.span divider.raw .literal
    { d with nodes := b.before ++ opener :: (first ++ middle :: d.nodes), count := d.count + 2 }

/-- Ends a block: it becomes a node of the sequence that it stands in. -/
def finish (d : Draft) (b : Block) : Draft :=
  let number := Node.numberAt d.count
  let node := match b.kind, b.firstBranch with
    -- Only conditionals are divided.
    | .loop path, _ => Node.each number b.opener.span path d.nodes
    | .conditional condition, none => Node.when number b.opener.span condition d.nodes
    | .conditional condition, some (first, _) =>
      Node.choice number b.opener.span condition first d.nodes
  { d with nodes := b.before ++ [node], count := d.count + 1 }

end Draft

/-- The state in which the next token is read: the open blocks, innermost first, and the sequence
    in the innermost of them. -/
structure Assembly where
  blocks : List Block
  draft : Draft

namespace Assembly

def start : Assembly := ⟨[], ⟨[], 0, []⟩⟩

/-- Gives up open blocks from inside out until one is met that a condition holds for. -/
def unwind (stop : Block → Bool) : List Block → Draft → Assembly
  | [], d => ⟨[], d⟩
  | b :: bs, d => if stop b then ⟨b :: bs, d⟩ else unwind stop bs (d.giveUp b)

def addLeaf (a : Assembly) (t : Token) (content : Leaf) : Assembly :=
  { a with draft := a.draft.addLeaf t content }

def openBlock (a : Assembly) (t : Token) (kind : BlockKind) : Assembly :=
  ⟨⟨kind, t, a.draft.nodes, none⟩ :: a.blocks, { a.draft with nodes := [] }⟩

/-- Divides the innermost block, if it is a conditional that is not divided yet. -/
def divide (a : Assembly) (t : Token) : Assembly :=
  match a.blocks with
  | ⟨.conditional condition, opener, before, none⟩ :: outer =>
    ⟨⟨.conditional condition, opener, before, some (a.draft.nodes, t)⟩ :: outer,
      { a.draft with nodes := [] }⟩
  | _ => { a with draft := a.draft.addStray t }

/-- Ends the innermost block that a closing tag can end. -/
def closeBlock (a : Assembly) (t : Token) (tag : Tag) : Assembly :=
  match unwind (fun b => b.kind.closer == tag) a.blocks a.draft with
  | ⟨b :: outer, d⟩ => ⟨outer, d.finish b⟩
  -- Without such a block none is given up: the draft is the one from before.
  | ⟨[], _⟩ => { a with draft := a.draft.addStray t }

def step (a : Assembly) (t : Token) : Assembly :=
  match t.tag? with
  | none => a.addLeaf t .literal
  | some tag =>
    match tag with
    | .variable path => a.addLeaf t (.variable path)
    | .particle word spec => a.addLeaf t (.particle word spec)
    | .pattern category sect word => a.addLeaf t (.pattern category sect word)
    | .partialMarker name => a.addLeaf t (.partialMarker name)
    | .comment remark => a.addLeaf t (.comment remark)
    | .unknown => a.addLeaf t .literal
    | .openIf condition => a.openBlock t (.conditional condition)
    | .openEach path => a.openBlock t (.loop path)
    | .otherwise => a.divide t
    | .closeIf => a.closeBlock t .closeIf
    | .closeEach => a.closeBlock t .closeEach

def run (a : Assembly) (ts : List Token) : Assembly := ts.foldl step a

/-- Gives up all open blocks. -/
def complete (a : Assembly) : Draft := (unwind (fun _ => false) a.blocks a.draft).draft

end Assembly

structure Template where
  source : Text
  /-- The nodes at the top of the tree. -/
  nodes : List Node
  /-- The number of nodes in the whole tree. -/
  size : Nat
  /-- The tags without a partner. -/
  warnings : List Warning

namespace Template

/-- The tree of some tokens. -/
def draft (ts : List Token) : Draft := (Assembly.start.run ts).complete

/-- Reads a template; every text is one. -/
def compile (source : Text) : Template :=
  let d := draft (Token.ofText source)
  { source := source, nodes := d.nodes, size := d.count, warnings := d.warnings }

end Template

end PagePress
