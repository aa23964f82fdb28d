/-
  PagePress.Diagnostic.Basic

  Diagnostics: what rendering, judging a page and loading rules report.

  A diagnostic has a title and a severity, and may have a stable code, a
  statement of the problem, details and hints.
-/

import PagePress.Text.Basic

namespace PagePress

/-- Whether a finding blocks publication. -/
inductive Severity where
  | error
  | warning
  deriving DecidableEq

/-- How a detail is presented. -/
inductive DetailKind where
  | error
  | info
  deriving DecidableEq

structure Detail where
  kind : DetailKind
  content : Text
  deriving DecidableEq

structure Diagnostic where
  code : Option Text := none
  title : Text
  severity : Severity
  problem : Option Text := none
  details : List Detail := []
  hints : List Text := []
  deriving DecidableEq

def Severity.label : Severity → Text
  | .error => "Error"
  | .warning => "Warning"

/-- The sign in front of a detail. -/
def DetailKind.bullet : DetailKind → Text
  | .error => "✖"
  | .info => "ℹ"

namespace Diagnostic

/-- A diagnostic with a code and a problem. -/
def coded (severity : Severity) (code title problem : Text) : Diagnostic :=
  { code := some code, title := title, severity := severity, problem := some problem }

def withDetail (d : Diagnostic) (kind : DetailKind) (content : Text) : Diagnostic :=
  { d with details := d.details ++ [⟨kind, content⟩] }

def withHint (d : Diagnostic) (hint : Text) : Diagnostic := { d with hints := d.hints ++ [hint] }

/-- The first line of the text form: severity, code if there is one, title. -/
def heading (d : Diagnostic) : Text :=
  match d.code with
  | some code => d.severity.label ++ " [" ++ code ++ "]: " ++ d.title
  | none => d.severity.label ++ ": " ++ d.title

/-- The text form: heading, problem, details and hints, each on a line of its own. -/
def toText (d : Diagnostic) : Text :=
  let problem := d.problem.toList
  let details := d.details.map fun x => x.kind.bullet ++ ' ' :: x.content
  let hints := d.hints.map fun h => '?' :: ' ' :: h
  List.intercalate ['\n'] (d.heading :: (problem ++ details ++ hints))

end Diagnostic

end PagePress
