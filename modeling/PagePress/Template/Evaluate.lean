/-
  PagePress.Template.Evaluate

  The evaluation of templates.

  Evaluation goes over the tree once and gives text together with warnings.
  A reference without a value leaves its own tag in the text.  A pattern is
  expanded where it is referred to: its text is a template that is evaluated
  in the same context, one level deeper.  Within a pattern nothing is
  escaped; the whole expansion is escaped once where it is put in.
-/

import PagePress.Json.Writer
import PagePress.Particle
import PagePress.Pattern.Library
import PagePress.Template.Basic
import PagePress.Variable.Context

namespace PagePress

/-- How substituted text is written into the output. -/
inductive Escape where
  | verbatim
  /-- As the inside of a JSON string. -/
  | json
  deriving DecidableEq

def Escape.apply : Escape → Text → Text
  | .verbatim, t => t
  | .json, t => Json.escape t

/-! ## Output -/

/-- Text with the warnings that arose with it. -/
structure Output where
  text : Text
  warnings : List Warning
  deriving DecidableEq

namespace Output

def empty : Output := ⟨[], []⟩

def ofText (t : Text) : Output := ⟨t, []⟩

def warned (t : Text) (w : Warning) : Output := ⟨t, [w]⟩

def append (a b : Output) : Output := ⟨a.text ++ b.text, a.warnings ++ b.warnings⟩

instance : Append Output := ⟨append⟩

def concat (outputs : List Output) : Output := outputs.foldr append empty

end Output

/-! ## Rendering settings -/

/-- What a rendering depends on besides template and variables. -/
structure Renderer where
  library : PatternLibrary
  seed : UInt32
  /-- How deep patterns may be nested. -/
  depthLimit : Nat

def defaultDepthLimit : Nat := 16

/-- The expansion of the text of a pattern in a context. -/
abbrev Expansion := Text → Context → Output

/-! ## Leaves -/

namespace Context

/-- The text of the value that a path leads to. -/
def textOf? (c : Context) (path : VarPath) : Option Text := (c.resolve path).bind Value.render?

def holds (c : Context) (condition : VarPath) : Bool := (c.resolve condition).any Value.truthy

/-- The elements of the list that a path leads to; none if it leads to no list. -/
def itemsOf (c : Context) (path : VarPath) : List Value :=
  match c.resolve path with
  | some (.list items) => items
  | _ => []

/-- The scope of one round of a loop: the item, its place in the list, and the fields of the item
    if it is a map. -/
def loopScope (item : Value) (index : Nat) (last : Bool) : Scope :=
  let fields := match item with
    | .map fields => fields
    | _ => []
  -- The first binding of a name counts, so these hide fields with their names.
  [("@last".toList, .bool last), ("@first".toList, .bool (index == 0)),
    ("@index".toList, .number (Float.ofNat index)), ("this".toList, item)] ++ fields

/-- The contexts of the rounds of a loop, from some index on. -/
def rounds (c : Context) (index : Nat) : List Value → List Context
  | [] => []
  | item :: items =>
    c.enter (loopScope item index items.isEmpty) :: rounds c (index + 1) items

end Context

namespace Renderer

/-- A particle reference: the particle alone, without its word. -/
def evalParticle (escape : Escape) (c : Context) (raw : Text) (word : VarPath) (spec : Text) :
    Output :=
  match c.textOf? word with
  | none => .warned raw (.unresolvedWord word)
  | some t =>
    match Particle.parse? spec with
    | some p => .ofText (escape.apply (p.formFor t))
    | none => .warned [] (.malformedSpec spec raw)

/-- A pattern reference. -/
def evalPattern (r : Renderer) (expand? : Option Expansion) (escape : Escape) (c : Context)
    (raw category sect : Text) (word : Option VarPath) : Output :=
  match r.library.select? r.seed category sect (word.bind c.textOf?) with
  | none => .warned raw (.unknownPool category sect r.library.version)
  | some source =>
    -- The limit on nesting shows only once a pattern has been chosen.
    match expand? with
    | none => .warned [] (.nestedTooDeep raw r.depthLimit)
    | some expand =>
      let expansion := expand source c
      { expansion with text := escape.apply expansion.text }

def evalLeaf (r : Renderer) (expand? : Option Expansion) (escape : Escape) (c : Context)
    (raw : Text) : Leaf → Output
  | .literal => .ofText raw
  | .variable path =>
    match c.textOf? path with
    | some t => .ofText (escape.apply t)
    | none => .warned raw (.unresolvedVariable path)
  | .particle word spec => evalParticle escape c raw word spec
  | .pattern category sect word => r.evalPattern expand? escape c raw category sect word
  | .partialMarker _ => .ofText raw
  | .comment _ => .empty

/-! ## Trees -/

mutual

/-- A node, given how patterns are expanded, if they still may be. -/
def evalNode (r : Renderer) (expand? : Option Expansion) (escape : Escape) (c : Context) :
    Node → Output
  | .leaf _ _ raw content => r.evalLeaf expand? escape c raw content
  | .when _ _ condition body =>
    if c.holds condition then r.evalNodes expand? escape c body else .empty
  | .choice _ _ condition yes no =>
    if c.holds condition then r.evalNodes expand? escape c yes
    else r.evalNodes expand? escape c no
  | .each _ _ path body =>
    .concat ((c.rounds 0 (c.itemsOf path)).map fun round => r.evalNodes expand? escape round body)

def evalNodes (r : Renderer) (expand? : Option Expansion) (escape : Escape) (c : Context) :
    List Node → Output
  | [] => .empty
  | n :: ns => r.evalNode expand? escape c n ++ r.evalNodes expand? escape c ns

end

/-- A template: its own warnings come before those of the evaluation. -/
def evalTemplate (r : Renderer) (expand? : Option Expansion) (escape : Escape) (c : Context)
    (t : Template) : Output :=
  ⟨[], t.warnings⟩ ++ r.evalNodes expand? escape c t.nodes

/-- How patterns are expanded when they may be nested a number of levels deeper. -/
def expansion (r : Renderer) : Nat → Option Expansion
  | 0 => none
  | levels + 1 =>
    some fun source c => r.evalTemplate (r.expansion levels) .verbatim c (.compile source)

/-- The output of a template before it is cleaned up. -/
def evaluate (r : Renderer) (escape : Escape) (c : Context) (t : Template) : Output :=
  r.evalTemplate (r.expansion r.depthLimit) escape c t

end Renderer

end PagePress
