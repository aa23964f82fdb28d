/-
  PagePress.Template.Render

  Rendering: evaluation followed by cleanup, as a page or as a JSON document.
-/

import PagePress.Json.Reader
import PagePress.Template.Cleanup
import PagePress.Template.Evaluate

namespace PagePress

/-- A rendered page with what was reported on the way. -/
structure Report where
  text : Text
  diagnostics : List Diagnostic
  deriving DecidableEq

/-- Whether every reference had a value and every block tag a partner. -/
def Report.isClean (r : Report) : Bool := r.diagnostics.isEmpty

/-- The JSON document in rendered text, without its empty fields. -/
def parseStructured? (rendered : Text) : Option Json := (Json.read? rendered).map Json.prune

namespace Renderer

/-- Renders a compiled template. -/
def renderTemplate (r : Renderer) (c : Context) (t : Template) : Report :=
  let output := r.evaluate .verbatim c t
  { text := cleanup output.text, diagnostics := output.warnings.map Warning.toDiagnostic }

def render (r : Renderer) (c : Context) (source : Text) : Report :=
  r.renderTemplate c (.compile source)

/-- The cleaned text of a template whose substituted values stand in JSON strings. -/
def structuredText (r : Renderer) (c : Context) (source : Text) : Text :=
  cleanup (r.evaluate .json c (.compile source)).text

/-- Renders a template to a JSON document; none if the rendered text is no document. -/
def renderStructured? (r : Renderer) (c : Context) (source : Text) : Option Json :=
  parseStructured? (r.structuredText c source)

def selectPattern? (r : Renderer) (category sect : Text) (word : Option Text) : Option Text :=
  r.library.select? r.seed category sect word

end Renderer

end PagePress
