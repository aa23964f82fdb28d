/-
  PagePress.Variable.Value

  The values of variables.

  A value is null, a truth value, a number, a text, a list or a map.  It
  decides conditions (`truthy`), counts as a filled field (`present`) and
  stands in rendered text (`render?`).
-/

import PagePress.Decimal.Layout
import PagePress.Json.Value
import PagePress.Text.Blank

namespace PagePress

/-- The value of a variable.  The keys of a map do not repeat. -/
inductive Value where
  | null
  | bool (b : Bool)
  | number (x : Float)
  | text (t : Text)
  | list (items : List Value)
  | map (fields : List (Text × Value))

namespace Value

instance : Inhabited Value := ⟨.null⟩

/-! ## Facts about a value -/

/-- Whether a condition on the value holds: zero, NaN and whatever is empty do not. -/
def truthy : Value → Bool
  | .null => false
  | .bool b => b
  | .number x => x != 0.0 && !x.isNaN
  | .text t => !t.isEmpty
  | .list items => !items.isEmpty
  | .map fields => !fields.isEmpty

/-- Whether the value fills a field: null, blank text and empty lists and maps do not. -/
def present : Value → Bool
  | .null => false
  | .bool _ => true
  | .number _ => true
  | .text t => !(Text.trim t).isEmpty
  | .list items => !items.isEmpty
  | .map fields => !fields.isEmpty

/-- The value at a path inside a value; only maps have anything inside. -/
def at? : List Text → Value → Option Value
  | [], v => some v
  | key :: keys, .map fields => (fields.lookup key).bind (at? keys)
  | _ :: _, _ => none

/-! ## Text of a value -/

/-- The number below which a whole number is written as an integer. -/
def wholeLimit : Nat := Nat.pow 10 15

/-- The natural number `mantissa * 2 ^ exponent`, if it is one and below the limit. -/
def whole? (mantissa : Nat) (exponent : Int) : Option Nat :=
  let (up, down) := Decimal.binaryScale exponent
  let n := mantissa * up / down
  if mantissa * up % down = 0 ∧ n < wholeLimit then some n else none

/-- The text of a number: a whole number below the limit as an integer, any other number with its
    shortest digits and no exponent. -/
def numberText (x : Float) : Text :=
  match Decimal.read x with
  | .finite negative mantissa exponent =>
    match whole? mantissa exponent with
    -- An integer has no minus zero, so both zeros are `0`.
    | some n => Text.ofInt (if negative then -n else n)
    | none => Decimal.plain.write x
  | _ => Decimal.plain.write x

mutual

/-- The text that stands for the value; null and maps have none. -/
def render? : Value → Option Text
  | .null => none
  | .bool b => some (if b then "true" else "false")
  | .number x => some (numberText x)
  | .text t => some t
  | .list items => some (List.intercalate ", ".toList (renderEach items))
  | .map _ => none

/-- The texts of those values that have one. -/
def renderEach : List Value → List Text
  | [] => []
  | v :: vs =>
    match v.render? with
    | some t => t :: renderEach vs
    | none => renderEach vs

end

/-! ## Values from JSON -/

mutual

/-- The value of a JSON document with sorted objects; numbers become doubles. -/
def ofSorted : Json → Value
  | .null => .null
  | .bool b => .bool b
  | .number n => .number n.toFloat
  | .string t => .text t
  | .array items => .list (ofSortedItems items)
  | .object members => .map (ofSortedMembers members)

def ofSortedItems : List Json → List Value
  | [] => []
  | v :: vs => ofSorted v :: ofSortedItems vs

def ofSortedMembers : List (Text × Json) → List (Text × Value)
  | [] => []
  | (k, v) :: ms => (k, ofSorted v) :: ofSortedMembers ms

end

/-- The value of a JSON document; of a repeated key the last member counts. -/
def ofJson (v : Json) : Value := ofSorted v.sorted

end Value

end PagePress
