/-
  PagePress.Text.Dictionary

  Entries under ascending keys.

  Keys are compared scalar by scalar.  Of several entries with one key the
  last counts.
-/

import PagePress.Text.Basic

namespace PagePress.Dictionary

/-- Puts an entry where its key belongs among ascending keys. -/
def insert {α : Type} (key : Text) (value : α) : List (Text × α) → List (Text × α)
  | [] => [(key, value)]
  | (k, v) :: es =>
    if Text.before key k then (key, value) :: (k, v) :: es
    else (k, v) :: insert key value es

/-- Entries in ascending order of their keys, the last of each key. -/
def ofEntries {α : Type} : List (Text × α) → List (Text × α)
  | [] => []
  | (k, v) :: es =>
    let rest := ofEntries es
    if (rest.lookup k).isSome then rest else insert k v rest

/-- Entries whose values are all read by a reader; none if it refuses one of them. -/
def mapValues? {α β : Type} (read? : α → Option β) (es : List (Text × α)) :
    Option (List (Text × β)) :=
  es.mapM fun (k, v) => (read? v).map (k, ·)

end PagePress.Dictionary
