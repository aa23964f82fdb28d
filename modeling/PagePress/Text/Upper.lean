/-
  PagePress.Text.Upper

  The upper-case form of a text, character by character.
-/

import PagePress.Text.UpperTable

namespace PagePress.Text

/-- The image of a code point under a run, if the run holds it. -/
def UpperRun.image? (run : UpperRun) (n : Nat) : Option Nat :=
  if run.first ≤ n ∧ n ≤ run.last ∧ (n - run.first) % run.step = 0 then
    some (run.image + (n - run.first))
  else none

/-- The upper-case form of one character; a character without one stands for itself. -/
def upperChar (c : Char) : Text :=
  match upperRuns.findSome? (·.image? c.toNat) with
  | some n => [Char.ofNat n]
  | none =>
    match upperSequences.lookup c.toNat with
    | some ns => ns.map Char.ofNat
    | none => [c]

def upper (t : Text) : Text := t.flatMap upperChar

end PagePress.Text
