/-
  PagePress.Variable.Context

  Contexts: the variables that are in reach, scope inside scope.

  A name means what the innermost scope that binds it says.
-/

import PagePress.Variable.Path
import PagePress.Variable.Value

namespace PagePress

/-- The bindings of one scope; the first binding of a name counts. -/
abbrev Scope := List (Text × Value)

/-- Scopes inside each other. -/
structure Context where
  /-- The bindings of the innermost scope. -/
  inner : Scope := []
  /-- The scopes around it, from inside out. -/
  outer : List Scope := []

namespace Context

def empty : Context := {}

/-- The context whose variables are the fields of a JSON object; any other document has none. -/
def ofJson (v : Json) : Context :=
  match Value.ofJson v with
  | .map fields => { inner := fields }
  | _ => empty

def insert (c : Context) (name : Text) (value : Value) : Context :=
  { c with inner := (name, value) :: c.inner }

/-- Opens a scope with the given bindings inside the innermost one. -/
def enter (c : Context) (scope : Scope) : Context := ⟨scope, c.inner :: c.outer⟩

/-- Opens an empty scope. -/
def child (c : Context) : Context := c.enter []

/-- What a name means. -/
def get? (c : Context) (name : Text) : Option Value :=
  (c.inner :: c.outer).findSome? (·.lookup name)

/-- The value at a path given by its segments; the empty path leads nowhere. -/
def at? (c : Context) : List Text → Option Value
  | [] => none
  | name :: keys => (c.get? name).bind (Value.at? keys)

def resolve (c : Context) (path : VarPath) : Option Value := c.at? path.segments

/-- The value at a path given with dots between its segments, whatever the segments are. -/
def dotted? (c : Context) (path : Text) : Option Value := c.at? (Text.splitOn '.' path)

end Context

end PagePress
