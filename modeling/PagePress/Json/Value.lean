/-
  PagePress.Json.Value

  JSON documents.

  An object keeps its members as they were written: in order, repetitions
  included.  `Json.sorted` brings a document into the form in which a key
  occurs once, with its last value, and the keys ascend.
-/

import PagePress.Decimal.Binary
import PagePress.Text.Dictionary

namespace PagePress

/-- A JSON number: an integer of at most 64 bits, or a double.  A double that is not finite stands
    for something without a value: a number out of range, a string with half a surrogate pair, or
    an object with such a string as a key. -/
inductive Json.Number where
  | integer (i : Int)
  | real (x : Float)

inductive Json where
  | null
  | bool (b : Bool)
  | number (n : Json.Number)
  | string (t : Text)
  | array (items : List Json)
  | object (members : List (Text × Json))

namespace Json

instance : Inhabited Json := ⟨.null⟩

def Number.toFloat : Number → Float
  | .integer i => Decimal.nearestInt i
  | .real x => x

/-! ## Parts without a value -/

/-- What stands for a part of a document that is well-formed but has no value. -/
def valueless : Json := .number (.real (0.0 / 0.0))

mutual

/-- Whether every part of a document has a value. -/
def hasValues : Json → Bool
  | .number (.real x) => x.isFinite
  | .array items => allHaveValues items
  | .object members => membersHaveValues members
  | _ => true

def allHaveValues : List Json → Bool
  | [] => true
  | v :: vs => v.hasValues && allHaveValues vs

def membersHaveValues : List (Text × Json) → Bool
  | [] => true
  | (_, v) :: ms => v.hasValues && membersHaveValues ms

end

/-! ## Sorted objects -/

mutual

/-- The document with the keys of each object ascending; of a repeated key the last value stays. -/
def sorted : Json → Json
  | .array items => .array (sortedItems items)
  | .object members => .object (sortedMembers members)
  | v => v

def sortedItems : List Json → List Json
  | [] => []
  | v :: vs => v.sorted :: sortedItems vs

/-- Members in ascending order of their keys, the last of each key. -/
def sortedMembers : List (Text × Json) → List (Text × Json)
  | [] => []
  | (k, v) :: ms =>
    let rest := sortedMembers ms
    if (rest.lookup k).isSome then rest else Dictionary.insert k v.sorted rest

end

/-! ## Empty fields -/

/-- A member value that carries nothing: null or the empty string. -/
def isEmptyField : Json → Bool
  | .null => true
  | .string t => t.isEmpty
  | _ => false

mutual

/-- The document without the members, at any depth, whose value is null or the empty string.
    Array elements stay where they are. -/
def prune : Json → Json
  | .array items => .array (pruneItems items)
  | .object members => .object (pruneMembers members)
  | v => v

def pruneItems : List Json → List Json
  | [] => []
  | v :: vs => v.prune :: pruneItems vs

/-- The members that carry something, pruned. -/
def pruneMembers : List (Text × Json) → List (Text × Json)
  | [] => []
  | (k, v) :: ms => if v.isEmptyField then pruneMembers ms else (k, v.prune) :: pruneMembers ms

end

end Json

end PagePress
