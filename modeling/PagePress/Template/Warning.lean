/-
  PagePress.Template.Warning

  What rendering reports: references without a value, particles and patterns
  that cannot be had, and block tags without a partner.
-/

import PagePress.Diagnostic.Basic
import PagePress.Variable.Path

namespace PagePress

/-- A cause for a warning while a template is rendered. -/
inductive Warning where
  /-- The spec of a particle reference does not read. -/
  | malformedSpec (spec raw : Text)
  /-- A variable has no value with a text. -/
  | unresolvedVariable (path : VarPath)
  /-- The word of a particle reference has no value with a text. -/
  | unresolvedWord (path : VarPath)
  /-- The library of some version has no such section. -/
  | unknownPool (category sect version : Text)
  /-- A pattern would be nested deeper than the limit allows. -/
  | nestedTooDeep (raw : Text) (limit : Nat)
  /-- A tag that ends or divides a block stands outside such a block. -/
  | neverOpened (raw : Text) (offset : Nat)
  /-- A block has no end; `closer` is the tag that would end it. -/
  | neverClosed (raw closer : Text) (offset : Nat)
  deriving DecidableEq

namespace Warning

/-- A text between backquotes. -/
def ticked (t : Text) : Text := '`' :: (t ++ ['`'])

def code : Warning → Text
  | malformedSpec .. => "L-1-1"
  | unresolvedVariable .. => "L-1-2"
  | unresolvedWord .. => "L-1-3"
  | unknownPool .. => "L-1-4"
  | nestedTooDeep .. => "L-1-5"
  | neverOpened .. => "L-1-6"
  | neverClosed .. => "L-1-6"

def title : Warning → Text
  | malformedSpec .. => "Malformed Particle Spec"
  | unresolvedVariable .. => "Unresolved Variable"
  | unresolvedWord .. => "Unresolved Particle Word"
  | unknownPool .. => "Unknown Pattern Pool"
  | nestedTooDeep .. => "Pattern Nesting Too Deep"
  | neverOpened .. => "Unbalanced block tag"
  | neverClosed .. => "Unbalanced block tag"

def problem : Warning → Text
  | malformedSpec spec raw => ticked spec ++ " in " ++ ticked raw ++ " is not of the form `A/B`"
  | unresolvedVariable path => ticked path.display ++ " has no value to substitute"
  | unresolvedWord path => ticked path.display ++ " has no value to attach a particle to"
  | unknownPool category sect version =>
    "No pattern pool " ++ ticked (category ++ '.' :: sect) ++ " in library version " ++
      ticked version
  | nestedTooDeep raw limit =>
    ticked raw ++ " exceeds the nesting limit of " ++ Text.ofNat limit
  | neverOpened raw _ => ticked raw ++ " has no matching opening tag"
  | neverClosed raw closer _ => ticked raw ++ " is never closed with " ++ closer

/-- The place of a block tag in its template. -/
def details : Warning → List Detail
  | neverOpened _ offset => [⟨.info, "at byte offset " ++ Text.ofNat offset⟩]
  | neverClosed _ _ offset => [⟨.info, "at byte offset " ++ Text.ofNat offset⟩]
  | _ => []

def toDiagnostic (w : Warning) : Diagnostic :=
  { Diagnostic.coded .warning w.code w.title w.problem with details := w.details }

end Warning

end PagePress
