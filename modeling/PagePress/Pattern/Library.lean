/-
  PagePress.Pattern.Library

  Libraries of interchangeable sentence patterns, and the choice among them.

  A library sorts its patterns by category and section.  Of a section's
  patterns one is chosen by a seed and, if given, a word: the word is folded
  into the seed with 32-bit arithmetic, and the result, modulo the number of
  patterns, is the index.
-/

import PagePress.Text.Basic

namespace PagePress

/-- The patterns of a category by section; the sections ascend. -/
abbrev PatternCategory := List (Text × List Text)

/-- A library of patterns; the categories ascend. -/
structure PatternLibrary where
  version : Text := []
  categories : List (Text × PatternCategory) := []
  deriving DecidableEq

/-! ## Choice -/

/-- A seed with a word folded in, scalar by scalar. -/
def selectionHash (seed : UInt32) (word : Option Text) : UInt32 :=
  (word.getD []).foldl (fun hash c => hash * 31 + c.val) seed

/-- The index chosen among a number of candidates; none if there are no candidates. -/
def selectIndex? (seed : UInt32) (word : Option Text) (count : Nat) : Option Nat :=
  if count = 0 then none else some ((selectionHash seed word).toNat % count)

namespace PatternLibrary

def categoryNames (l : PatternLibrary) : List Text := l.categories.map (·.1)

def sections (l : PatternLibrary) (category : Text) : List Text :=
  ((l.categories.lookup category).getD []).map (·.1)

def pool? (l : PatternLibrary) (category sect : Text) : Option (List Text) :=
  (l.categories.lookup category).bind (·.lookup sect)

/-- The pattern chosen in a section; none if the library does not have the section. -/
def select? (l : PatternLibrary) (seed : UInt32) (category sect : Text)
    (word : Option Text) : Option Text := do
  let pool ← l.pool? category sect
  pool[← selectIndex? seed word pool.length]?

/-! ## Well-formed libraries -/

/-- The first section without patterns, with its category. -/
def emptyPool? (l : PatternLibrary) : Option (Text × Text) :=
  l.categories.findSome? fun (category, pools) =>
    (pools.find? fun pool => pool.2.isEmpty).map fun pool => (category, pool.1)

end PatternLibrary

end PagePress
