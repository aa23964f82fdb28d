/-
  PagePress.Toml.Value

  The values of TOML documents.
-/

import PagePress.Text.Basic

namespace PagePress.Toml

/-- A TOML value.  The keys of a table do not repeat. -/
inductive Value where
  | string (t : Text)
  | integer (i : Int)
  | float (x : Float)
  | boolean (b : Bool)
  /-- A date, a time or both, as written. -/
  | dateTime (t : Text)
  | array (items : List Value)
  | table (entries : List (Text × Value))

/-- A reader of the start of a text: a result and what follows it. -/
abbrev Reader (α : Type) := Text → Option (α × Text)

end PagePress.Toml
