/-
  PagePress.Toml.Table

  Tables in the making.

  While a document is read, a table remembers how it came about, for that
  decides what may still be added to it: a table with a header of its own or
  written inline is closed to dotted keys from outside, one that exists only
  because a header or a dotted key passed through it is not.
-/

import PagePress.Toml.Value

namespace PagePress.Toml

/-- How a table came about. -/
inductive Origin where
  /-- It has a header, or is the document itself, or is an element of an array of tables. -/
  | header
  /-- A header of a table inside it passed through it. -/
  | passed
  /-- A dotted key passed through it. -/
  | dotted
  deriving DecidableEq

/-- What a key stands for while the document is read. -/
inductive Item where
  | value (v : Value)
  | table (origin : Origin) (entries : List (Text × Item))
  /-- An array of tables, the last one first; each with its entries. -/
  | tables (elements : List (List (Text × Item)))

/-- The entries of a table in the making. -/
abbrev Entries := List (Text × Item)

namespace Entries

def replace (key : Text) (item : Item) : Entries → Entries
  | [] => []
  | (k, i) :: es => if k = key then (k, item) :: es else (k, i) :: replace key item es

/-- Changes the table that a key leads to through tables and last elements of arrays of tables;
    tables that are missing on the way come about. -/
def descend (dotted : Bool) (change : Origin → Entries → Option Entries) :
    List Text → Origin → Entries → Option Entries
  | [], origin, es => change origin es
  | key :: keys, _, es =>
    match es.lookup key with
    | none => do
      let origin := if dotted then Origin.dotted else Origin.passed
      let inner ← descend dotted change keys origin []
      return es ++ [(key, .table origin inner)]
    | some (.table origin entries) =>
      -- A dotted key does not enter tables with a header.
      if dotted ∧ origin = .header then none
      else do
        let inner ← descend dotted change keys origin entries
        return replace key (.table origin inner) es
    -- Elements are kept last one first, so this is the one that is still open.
    | some (.tables (last :: others)) => do
      let inner ← descend dotted change keys .header last
      return replace key (.tables (inner :: others)) es
    | some (.tables []) => none
    | some (.value _) => none

/-- Adds a value under a key that must be new. -/
def add (key : Text) (item : Item) (es : Entries) : Option Entries :=
  if (es.lookup key).isSome then none else some (es ++ [(key, item)])

/-- Adds a value under the last part of a key inside a table. -/
def addUnder (path : List Text) (key : Text) (item : Item) (origin : Origin) (es : Entries) :
    Option Entries :=
  -- A dotted key must end in a table that dotted keys have brought about, any other must not.
  descend true (fun o es => if o = .dotted ↔ path = [] then none else add key item es)
    path origin es

/-- Opens the table of a header. -/
def openTable (key : Text) (es : Entries) : Option Entries :=
  match es.lookup key with
  | none => some (es ++ [(key, .table .header [])])
  | some (.table .passed entries) => some (replace key (.table .header entries) es)
  | some _ => none

/-- Opens a further element of an array of tables. -/
def openElement (key : Text) (es : Entries) : Option Entries :=
  match es.lookup key with
  | none => some (es ++ [(key, .tables [[]])])
  | some (.tables elements) => some (replace key (.tables ([] :: elements)) es)
  | some _ => none

end Entries

/-! ## Finished tables -/

mutual

/-- What a key stands for in the end. -/
def Item.toValue : Item → Value
  | .value v => v
  | .table _ entries => .table (entriesToValues entries)
  | .tables elements => .array (tablesToValues elements [])

/-- The entries of a table in the end. -/
def entriesToValues : List (Text × Item) → List (Text × Value)
  | [] => []
  | (k, i) :: es => (k, i.toValue) :: entriesToValues es

/-- The elements of an array of tables, first one first, before some others. -/
def tablesToValues : List (List (Text × Item)) → List Value → List Value
  | [], later => later
  | es :: others, later => tablesToValues others (.table (entriesToValues es) :: later)

end

end PagePress.Toml
