/-
  PagePress.Pattern.Load

  Reading pattern libraries from JSON and TOML.

  A library is a record of a version and categories, both of which may be
  missing.  A library with an empty section is refused.
-/

import PagePress.Diagnostic.Codec
import PagePress.Json.Reader
import PagePress.Pattern.Library
import PagePress.Toml.Document
import PagePress.Toml.Record
import PagePress.Workspace.Basic

namespace PagePress

/-- Why a library cannot be had. -/
inductive LibraryError where
  | notJson
  | notToml
  /-- The file cannot be read as text. -/
  | unreadable (cause : ReadError)
  /-- A section has no patterns. -/
  | emptyPool (category sect : Text)
  deriving DecidableEq

def LibraryError.message : LibraryError → Text
  | notJson => "Invalid pattern library JSON"
  | notToml => "Invalid pattern library TOML"
  | unreadable cause => "I/O error: " ++ cause.message
  | emptyPool category sect =>
    "Invalid pattern library: pool '" ++ category ++ "." ++ sect ++ "' has no templates"

namespace PatternLibrary

/-- The library itself, unless it has an empty section. -/
def checked (l : PatternLibrary) : Except LibraryError PatternLibrary :=
  match l.emptyPool? with
  | some (category, sect) => .error (.emptyPool category sect)
  | none => .ok l

/-- The library of some categories, given in any order. -/
def ofCategories (version : Text) (categories : List (Text × List (Text × List Text))) :
    Except LibraryError PatternLibrary :=
  let sections := categories.map fun (name, pools) => (name, Dictionary.ofEntries pools)
  checked ⟨version, Dictionary.ofEntries sections⟩

/-! ## JSON -/

/-- Reads the members of an object, all with one reader. -/
def dictionaryOfJson? {α : Type} (read? : Json → Option α) : Json → Option (List (Text × α))
  | .object members => (Dictionary.mapValues? read? members).map Dictionary.ofEntries
  | _ => none

def categoriesOfJson? (v : Json) : Option (List (Text × PatternCategory)) :=
  dictionaryOfJson? (dictionaryOfJson? Json.asTexts?) v

/-- Reads a library from its fields, which may be missing. -/
def ofFields? (version categories : Option Json) : Option PatternLibrary := do
  let version ← match version with
    | some v => v.asText?
    | none => some []
  let categories ← match categories with
    | some v => categoriesOfJson? v
    | none => some []
  return ⟨version, categories⟩

/-- Reads a library that may have empty sections. -/
def ofJson? : Json → Option PatternLibrary
  | .object members => do
    ofFields? (← Json.field? "version" members) (← Json.field? "categories" members)
  | .array [] => ofFields? none none
  | .array [version] => ofFields? version none
  | .array [version, categories] => ofFields? version categories
  | _ => none

/-- Reads a library from JSON text.  What stands in fields that a library does not have may nest
    however deep. -/
def ofJsonText (t : Text) : Except LibraryError PatternLibrary :=
  match (Json.parseWithin? t.length t).bind ofJson? with
  | some l => l.checked
  | none => .error .notJson

/-! ## TOML -/

/-- Reads a library that may have empty sections. -/
def ofToml? (v : Toml.Value) : Option PatternLibrary := do
  guard v.isRecord
  let version ← v.fieldOr? 0 "version" Toml.Value.text? []
  let categories ← v.fieldOr? 1 "categories" (Toml.Value.dictionary?
    (Toml.Value.dictionary? Toml.Value.texts?)) []
  return ⟨version, categories⟩

def ofTomlText (t : Text) : Except LibraryError PatternLibrary :=
  match (Toml.parse? t).bind fun entries => ofToml? (.table entries) with
  | some l => l.checked
  | none => .error .notToml

/-! ## Files -/

/-- Whether a file name has the extension `toml`: it ends with it and a point, and something stands
    before the point. -/
def isTomlName (path : Text) : Bool :=
  let name := ((Text.splitOn '/' path).getLast?).getD []
  ".toml".toList.isSuffixOf name && name.length != 5

/-- Reads a library from the file at a path, given what reading the file gave. -/
def ofFile (path : Text) : Except ReadError Text → Except LibraryError PatternLibrary
  | .error cause => .error (.unreadable cause)
  | .ok content => if isTomlName path then ofTomlText content else ofJsonText content

end PatternLibrary

end PagePress
