/-
  PagePress.Toml.Record

  Records in TOML documents.

  A record is a table with a value for each of its fields, or an array of
  the values in the order of the fields.  Further entries and elements do not
  count.  A date stands for a record of which no field is given.  A field that
  is not given keeps its default.
-/

import PagePress.Decimal.Binary
import PagePress.Text.Dictionary
import PagePress.Toml.Value

namespace PagePress.Toml.Value

/-! ## Single values -/

def text? : Value → Option Text
  | .string t => some t
  | _ => none

def texts? : Value → Option (List Text)
  | .array items => items.mapM text?
  | _ => none

/-- The integer that a value is. -/
def integer? : Value → Option Int
  | .integer i => some i
  | _ => none

/-- The natural number that a value is. -/
def count? : Value → Option Nat
  | .integer (.ofNat n) => some n
  | _ => none

/-- The double that a value is; an integer stands for the nearest one. -/
def double? : Value → Option Float
  | .float x => some x
  | .integer i => some (Decimal.nearestInt i)
  | _ => none

/-- The entries of a table, all read by one reader, in ascending order of their keys. -/
def dictionary? {α : Type} (read? : Value → Option α) : Value → Option (List (Text × α))
  | .table entries => (Dictionary.mapValues? read? entries).map Dictionary.ofEntries
  | _ => none

/-! ## Records -/

/-- Whether a value may be a record. -/
def isRecord : Value → Bool
  | .table _ => true
  | .array _ => true
  | .dateTime _ => true
  | _ => false

/-- The value of a field of a record, given by its position and name. -/
def field? (v : Value) (position : Nat) (name : Text) : Option Value :=
  match v with
  | .table entries => entries.lookup name
  | .array items => items[position]?
  | _ => none

/-- The field of a record as a reader reads it, or its default. -/
def fieldOr? {α : Type} (v : Value) (position : Nat) (name : Text) (read? : Value → Option α)
    (default : α) : Option α :=
  match v.field? position name with
  | some x => read? x
  | none => some default

end PagePress.Toml.Value
