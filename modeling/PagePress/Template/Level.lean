/-
  PagePress.Template.Level

  Levels of an evaluation in progress.

  An evaluation that is driven from outside keeps a stack of levels.  Each
  has its nesting depth, the limit on it, the way text is escaped, and the
  diagnostics reported on it.  A level for a loop body inherits everything but
  the diagnostics; one for a pattern is a step deeper and escapes nothing.
-/

import PagePress.Diagnostic.Basic
import PagePress.Template.Evaluate

namespace PagePress

/-- A level of an evaluation. -/
structure Level where
  depth : Nat
  limit : Nat
  escape : Escape
  diagnostics : List Diagnostic
  deriving DecidableEq

namespace Level

/-- The level an evaluation starts on. -/
def root (limit : Nat) (escape : Escape) : Level := ⟨0, limit, escape, []⟩

def add (l : Level) (d : Diagnostic) : Level := { l with diagnostics := l.diagnostics ++ [d] }

/-- The level for the body of a loop. -/
def child (l : Level) : Level := { l with diagnostics := [] }

/-- The level for the expansion of a pattern; none if the limit is reached. -/
def nested? (l : Level) : Option Level :=
  if l.limit ≤ l.depth then none else some ⟨l.depth + 1, l.limit, .verbatim, []⟩

/-- Takes over the diagnostics of a level above. -/
def merge (l above : Level) : Level :=
  { l with diagnostics := l.diagnostics ++ above.diagnostics }

end Level

/-- A stack of levels: the top, and what lies below it from top to root. -/
structure LevelStack where
  top : Level
  below : List Level
  deriving DecidableEq

namespace LevelStack

/-- What can be done to a stack. -/
inductive Step where
  | add (d : Diagnostic)
  | child
  | nested
  | merge
  | drop

/-- How a step went. -/
inductive Outcome where
  /-- It was done. -/
  | done
  /-- The limit on nesting was reached. -/
  | refused
  /-- The root cannot be left. -/
  | ignored
  deriving DecidableEq

/-- The stack with the root level alone. -/
def start (limit : Nat) (escape : Escape) : LevelStack := ⟨.root limit escape, []⟩

def size (s : LevelStack) : Nat := s.below.length + 1

/-- The levels from root to top. -/
def levels (s : LevelStack) : List Level := (s.top :: s.below).reverse

/-- Does a step. -/
def step (s : LevelStack) : Step → LevelStack × Outcome
  | .add d => (⟨s.top.add d, s.below⟩, .done)
  | .child => (⟨s.top.child, s.top :: s.below⟩, .done)
  | .nested =>
    match s.top.nested? with
    | some above => (⟨above, s.top :: s.below⟩, .done)
    | none => (s, .refused)
  | .merge =>
    match s.below with
    | l :: ls => (⟨l.merge s.top, ls⟩, .done)
    | [] => (s, .ignored)
  | .drop =>
    match s.below with
    | l :: ls => (⟨l, ls⟩, .done)
    | [] => (s, .ignored)

end LevelStack

end PagePress
