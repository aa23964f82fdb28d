/-
  PagePress.Json.Reader

  Reading JSON documents.

  A machine goes over the lexemes once.  It keeps the containers that are
  open, innermost first, and what may come next.  A document may nest only so
  deep; `nestingLimit` is the usual bound.
-/

import PagePress.Json.Lexeme

namespace PagePress.Json

/-- The number of arrays and objects that may stand inside each other. -/
def nestingLimit : Nat := 127

/-- The members of an object read so far, last first; none once a key was no text, for then the
    object has no value. -/
abbrev Members := Option (List (Text × Json))

namespace Members

def add (key : Text) (v : Json) (ms : Members) : Members := ms.map ((key, v) :: ·)

def toObject : Members → Json
  | some ms => .object ms.reverse
  | none => valueless

end Members

/-- An open container, with what it holds so far, last first. -/
inductive Container where
  | array (items : List Json)
  /-- An object in which the value of `key` is being read. -/
  | object (members : Members) (key : Text)

/-- What may come next. -/
inductive Expected where
  | value
  /-- The first element of an array, or its end. -/
  | element
  /-- The first key of an object, or its end. -/
  | firstKey
  /-- A further key of an object. -/
  | key (members : Members)
  | colon (members : Members) (key : Text)
  /-- What follows a complete value: a comma, an end, or nothing. -/
  | afterValue (v : Json)

/-- The state of the reader. -/
structure Machine where
  containers : List Container
  expected : Expected

def Machine.start : Machine := ⟨[], .value⟩

/-- A value starts. -/
def Machine.value (limit : Nat) (containers : List Container) : Lexeme → Option Machine
  | .null => some ⟨containers, .afterValue .null⟩
  | .bool b => some ⟨containers, .afterValue (.bool b)⟩
  | .number n => some ⟨containers, .afterValue (.number n)⟩
  | .string t => some ⟨containers, .afterValue (.string t)⟩
  | .brokenString => some ⟨containers, .afterValue valueless⟩
  | .openArray =>
    if containers.length < limit then some ⟨.array [] :: containers, .element⟩ else none
  | .openObject => if containers.length < limit then some ⟨containers, .firstKey⟩ else none
  | _ => none

/-- A key of an object is read. -/
def Machine.key (containers : List Container) (members : Members) : Lexeme → Option Machine
  | .string key => some ⟨containers, .colon members key⟩
  -- The members read before are lost with the key.
  | .brokenString => some ⟨containers, .colon none []⟩
  | _ => none

/-- A value is complete. -/
def Machine.close (v : Json) : List Container → Lexeme → Option Machine
  | .array items :: outer, .comma => some ⟨.array (v :: items) :: outer, .value⟩
  | .array items :: outer, .closeArray => some ⟨outer, .afterValue (.array (v :: items).reverse)⟩
  | .object members key :: outer, .comma => some ⟨outer, .key (members.add key v)⟩
  | .object members key :: outer, .closeObject =>
    some ⟨outer, .afterValue (members.add key v).toObject⟩
  | _, _ => none

def Machine.step (limit : Nat) (m : Machine) (l : Lexeme) : Option Machine :=
  match m.expected with
  | .value => value limit m.containers l
  | .element =>
    match l, m.containers with
    | .closeArray, .array items :: outer => some ⟨outer, .afterValue (.array items)⟩
    | _, _ => value limit m.containers l
  | .firstKey =>
    match l with
    | .closeObject => some ⟨m.containers, .afterValue (.object [])⟩
    | _ => key m.containers (some []) l
  -- After a comma no object may end.
  | .key members => key m.containers members l
  | .colon members key =>
    match l with
    | .colon => some ⟨.object members key :: m.containers, .value⟩
    | _ => none
  | .afterValue v => close v m.containers l

/-- The document, if one is complete. -/
def Machine.document? : Machine → Option Json
  | ⟨[], .afterValue v⟩ => some v
  | _ => none

/-- Reads a document that nests no deeper than a limit. -/
def parseWithin? (limit : Nat) (t : Text) : Option Json := do
  let lexemes ← lexemes? t
  let final ← lexemes.foldlM (Machine.step limit) Machine.start
  final.document?

/-- Reads a document: nested no deeper than usual, every part with a value, the keys of objects
    ascending and free of repetitions. -/
def read? (t : Text) : Option Json :=
  match parseWithin? nestingLimit t with
  | some v => if v.hasValues then some v.sorted else none
  | none => none

end PagePress.Json
