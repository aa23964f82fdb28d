/-
  PagePress.Proofs.Json.Prune

  Pruning takes away empty fields and nothing else.

  A path goes through a document by keys of objects and places in arrays.
  What a path leads to in the pruned document is what it leads to in the
  document without crossing an empty field, pruned (`Json.valuesAt_prune`).
  So an object holds no empty field any more, arrays keep their elements in
  place, and a second pruning finds nothing to do
  (`Json.prune_takes_empty_fields`).
-/

import PagePress.Proofs.Json.Fields

namespace PagePress.Json

/-! ## Paths -/

/-- A step from a document into one of its parts. -/
inductive Step where
  | key (k : Text)
  | index (i : Nat)
  deriving DecidableEq

/-- What a step leads to, if only some fields may be crossed.  There is more than one value only
    where a key is repeated. -/
def parts (mayCross : Json → Bool) : Json → Step → List Json
  | .object members, .key k =>
    (members.filter fun m => decide (m.1 = k) && mayCross m.2).map Prod.snd
  | .array items, .index i => items[i]?.toList
  | _, _ => []

/-- What a path leads to, if only some fields may be crossed. -/
def follow (mayCross : Json → Bool) : List Step → Json → List Json
  | [], v => [v]
  | s :: path, v => (v.parts mayCross s).flatMap (follow mayCross path)

/-- What a path leads to. -/
def valuesAt (v : Json) (path : List Step) : List Json := follow (fun _ => true) path v

/-- What a path leads to without crossing an empty field. -/
def filledAt (v : Json) (path : List Step) : List Json := follow (fun u => !u.isEmptyField) path v

/-- A document that is neither an array nor an object. -/
def isLeaf : Json → Bool
  | .array _ | .object _ => false
  | _ => true

/-! ## Pruning -/

theorem pruneItems_eq (vs : List Json) : pruneItems vs = vs.map prune := by
  induction vs with
  | nil => rfl
  | cons v vs ih => rw [pruneItems, ih, List.map_cons]

theorem prune_leaf {v : Json} (h : v.isLeaf = true) : v.prune = v := by
  cases v with
  | array items => exact Bool.noConfusion h
  | object members => exact Bool.noConfusion h
  | _ => rfl

/-- Whether a field is empty is not changed by what is taken out inside it. -/
theorem isEmptyField_prune (v : Json) : v.prune.isEmptyField = v.isEmptyField := by
  cases v <;> rfl

/-- No field of a pruned object is empty. -/
theorem isEmptyField_of_mem_pruneMembers {ms : List (Text × Json)} {m : Text × Json}
    (h : m ∈ pruneMembers ms) : m.2.isEmptyField = false := by
  rw [pruneMembers_eq, List.mem_map] at h
  obtain ⟨m', hm', rfl⟩ := h
  have hfilled := (List.mem_filter.1 hm').2
  rwa [Bool.not_eq_true', ← isEmptyField_prune] at hfilled

mutual

theorem prune_prune (v : Json) : v.prune.prune = v.prune := by
  cases v with
  | array items => exact congrArg array (pruneItems_pruneItems items)
  | object members => exact congrArg object (pruneMembers_pruneMembers members)
  | null | bool | number | string => rfl

theorem pruneItems_pruneItems (vs : List Json) :
    pruneItems (pruneItems vs) = pruneItems vs := by
  cases vs with
  | nil => rfl
  | cons v vs => rw [pruneItems, pruneItems, prune_prune v, pruneItems_pruneItems vs]

theorem pruneMembers_pruneMembers (ms : List (Text × Json)) :
    pruneMembers (pruneMembers ms) = pruneMembers ms := by
  match ms with
  | [] => rfl
  | (k, v) :: ms =>
      have ih := pruneMembers_pruneMembers ms
      rw [pruneMembers]
      split
      · exact ih
      · next hfilled =>
          -- what is left of the value is no empty field either
          rw [pruneMembers, isEmptyField_prune, if_neg hfilled, prune_prune v, ih]

end

/-! ## Paths of a pruned document -/

/-- One step into a pruned document. -/
theorem parts_prune (v : Json) (s : Step) :
    v.prune.parts (fun _ => true) s = (v.parts (fun u => !u.isEmptyField) s).map prune := by
  cases v with
  | object members =>
      cases s with
      | key k =>
          simp only [prune, parts, pruneMembers_eq, List.filter_map, List.filter_filter,
            List.map_map, Function.comp_def, Bool.and_true]
      | index i => rfl
  | array items =>
      cases s with
      | key k => rfl
      | index i => simp only [prune, parts, pruneItems_eq, List.getElem?_map, Option.toList_map]
  | null | bool | number | string => rfl

/-- A path into a pruned document leads to the pruned values that it leads to in the document
    without crossing an empty field. -/
theorem valuesAt_prune (v : Json) (path : List Step) :
    v.prune.valuesAt path = (v.filledAt path).map prune := by
  show follow _ path v.prune = (follow _ path v).map prune
  induction path generalizing v with
  | nil => rfl
  | cons s path ih =>
      calc follow (fun _ => true) (s :: path) v.prune
        _ = ((v.parts (fun u => !u.isEmptyField) s).map prune).flatMap
            (follow (fun _ => true) path) := by rw [follow, parts_prune]
        _ = (v.parts (fun u => !u.isEmptyField) s).flatMap fun u =>
            (follow (fun w => !w.isEmptyField) path u).map prune := by
          rw [List.flatMap_map]
          simp only [ih]
        _ = (follow (fun u => !u.isEmptyField) (s :: path) v).map prune := by
          rw [follow, List.map_flatMap]

/-- A pruned document has no empty field at any depth, and pruning it again changes nothing.  Its
    arrays have their elements in place, each pruned, and its leaves are unchanged.  Its paths are
    those of the document that cross no empty field, and what they lead to is pruned. -/
theorem prune_takes_empty_fields (v : Json) :
    (∀ path members, .object members ∈ v.prune.valuesAt path →
        ∀ m ∈ members, m.2.isEmptyField = false) ∧
      v.prune.prune = v.prune ∧
      (∀ path items, .array items ∈ v.filledAt path →
        .array (items.map prune) ∈ v.prune.valuesAt path) ∧
      (∀ path u, u ∈ v.filledAt path → u.isLeaf = true → u ∈ v.prune.valuesAt path) ∧
      ∀ path, v.prune.valuesAt path = (v.filledAt path).map prune := by
  refine ⟨?_, prune_prune v, ?_, ?_, valuesAt_prune v⟩
  · intro path members hmem m hm
    rw [valuesAt_prune, List.mem_map] at hmem
    obtain ⟨u, -, hu⟩ := hmem
    -- only an object is pruned to an object
    cases u with
    | object ms =>
        obtain rfl := object.inj hu
        exact isEmptyField_of_mem_pruneMembers hm
    | _ => exact Json.noConfusion hu
  · intro path items hmem
    rw [valuesAt_prune, List.mem_map]
    exact ⟨.array items, hmem, congrArg array (pruneItems_eq items)⟩
  · intro path u hmem hleaf
    rw [valuesAt_prune, List.mem_map]
    exact ⟨u, hmem, prune_leaf hleaf⟩

-- An object that is empty after pruning stays: only null and the empty string make a field empty.
example : prune (.object [(['a'], .object [(['b'], .null)]), (['c'], .string [])]) =
    .object [(['a'], .object [])] := rfl

end PagePress.Json
