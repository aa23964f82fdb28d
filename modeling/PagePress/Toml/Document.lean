/-
  PagePress.Toml.Document

  Reading TOML documents.

  A document is a sequence of lines: headers of tables, headers of elements
  of arrays of tables, and keys with values, which belong to the table of the
  last header.  Arrays and inline tables nest only so deep.
-/

import PagePress.Toml.Scalar
import PagePress.Toml.Table

namespace PagePress.Toml

/-- The number of arrays and inline tables that may stand inside each other. -/
def nestingLimit : Nat := 79

/-! ## Values -/

/-- The elements of an array up to its closing bracket, given a reader of values and a bound on
    the number of elements. -/
def arrayItems? (value? : Reader Value) : Nat → Reader (List Value)
  | 0, _ => none
  | n + 1, t =>
    match skipBlankLines t with
    -- This is also where an array ends after a last comma.
    | ']' :: rest => some ([], rest)
    | cs => do
      let (v, rest) ← value? cs
      match skipBlankLines rest with
      | ']' :: rest => return ([v], rest)
      | ',' :: rest => do
        let (vs, rest) ← arrayItems? value? n rest
        return (v :: vs, rest)
      | _ => none

/-- A key of an inline table with its value, both with the gaps around them. -/
def inlineEntry? (value? : Reader Value) (t : Text) : Option ((List Text × Value) × Text) := do
  let (key, t) ← key? t
  let '=' :: t := t | none
  let (v, t) ← value? (skipGap t)
  return ((key, v), skipGap t)

/-- The entries of an inline table up to its closing brace, the first one to be read; given a
    reader of values and a bound on their number. -/
def inlineEntries? (value? : Reader Value) : Nat → Reader (List (List Text × Value))
  | 0, _ => none
  | n + 1, t => do
    let (entry, t) ← inlineEntry? value? t
    match t with
    | '}' :: rest => return ([entry], rest)
    | ',' :: rest => do
      let (entries, rest) ← inlineEntries? value? n rest
      return (entry :: entries, rest)
    | _ => none

/-- Adds an entry with a key of several parts to a table. -/
def addEntry (origin : Origin) (es : Entries) (entry : List Text × Value) : Option Entries :=
  match entry.1.getLast? with
  | some key => Entries.addUnder entry.1.dropLast key (.value entry.2) origin es
  | none => none

/-- The table of the entries of an inline table. -/
def tableOf? (entries : List (List Text × Value)) : Option Value := do
  let es ← entries.foldlM (addEntry .header) []
  return .table (entriesToValues es)

/-- An array, its opening bracket already read, given a reader of values. -/
def array? (value? : Reader Value) : Reader Value := fun t => do
  let (items, rest) ← arrayItems? value? (t.length + 1) t
  return (.array items, rest)

/-- An inline table, its opening brace already read, given a reader of values. -/
def inlineTable? (value? : Reader Value) : Reader Value := fun t =>
  match skipGap t with
  | '}' :: rest => some (.table [], rest)
  | cs => do
    let (entries, rest) ← inlineEntries? value? (cs.length + 1) cs
    return (← tableOf? entries, rest)

/-- A value without elements. -/
def scalar? (t : Text) : Option (Value × Text) :=
  match t with
  | '"' :: _ => (string? t).map fun (s, rest) => (.string s, rest)
  | '\'' :: _ => (string? t).map fun (s, rest) => (.string s, rest)
  | 't' :: 'r' :: 'u' :: 'e' :: rest => some (.boolean true, rest)
  | 'f' :: 'a' :: 'l' :: 's' :: 'e' :: rest => some (.boolean false, rest)
  | _ => numberOrDate? t

/-- A value, given how many levels deep it may nest. -/
def value? : Nat → Reader Value
  | _, [] => none
  | levels, c :: cs =>
    if c = '[' ∨ c = '{' then
      match levels with
      | 0 => none
      | levels + 1 =>
        if c = '[' then array? (value? levels) cs else inlineTable? (value? levels) cs
    else scalar? (c :: cs)

/-! ## Lines -/

/-- A document in the making: its entries, and the path of the last header. -/
structure Draft where
  entries : Entries
  here : List Text

namespace Draft

def start : Draft := ⟨[], []⟩

def openTable (d : Draft) (path : List Text) : Option Draft := do
  let key ← path.getLast?
  let es ← Entries.descend false (fun _ es => Entries.openTable key es) path.dropLast .header
    d.entries
  return ⟨es, path⟩

def openElement (d : Draft) (path : List Text) : Option Draft := do
  let key ← path.getLast?
  let es ← Entries.descend false (fun _ es => Entries.openElement key es) path.dropLast .header
    d.entries
  return ⟨es, path⟩

def addEntry (d : Draft) (entry : List Text × Value) : Option Draft := do
  let es ← Entries.descend false (fun _ es => Toml.addEntry .header es entry) d.here .header
    d.entries
  return { d with entries := es }

end Draft

/-- Takes a line that is neither empty nor a comment. -/
def takeLine? (d : Draft) : Text → Option (Draft × Text)
  | '[' :: '[' :: cs => do
    let (path, cs) ← key? cs
    let ']' :: ']' :: cs := cs | none
    let rest ← restOfLine? cs
    return (← d.openElement path, rest)
  | '[' :: cs => do
    let (path, cs) ← key? cs
    let ']' :: cs := cs | none
    let rest ← restOfLine? cs
    return (← d.openTable path, rest)
  | cs => do
    let (key, cs) ← key? cs
    let '=' :: cs := cs | none
    let (v, cs) ← value? nestingLimit (skipGap cs)
    let rest ← restOfLine? cs
    return (← d.addEntry (key, v), rest)

/-- Takes the lines of a text, given a bound on their number. -/
def takeLines? : Nat → Draft → Text → Option Draft
  | 0, _, _ => none
  | n + 1, d, t =>
    match skipBlankLines t with
    | [] => some d
    | cs => do
      let (d, rest) ← takeLine? d cs
      takeLines? n d rest

/-- Reads a document, a table. -/
def parse? (t : Text) : Option (List (Text × Value)) := do
  let body := match t with
    -- A byte order mark does not count.
    | '\ufeff' :: cs => cs
    | cs => cs
  let d ← takeLines? (body.length + 1) Draft.start body
  return entriesToValues d.entries

end PagePress.Toml
