/-
  PagePress.Proofs.Json.Fields

  Objects whose members are texts.

  Written and read back, such an object has the same members in ascending
  order of their keys (`sortedMembers_perm`), and pruning leaves those whose
  text is not empty (`parseStructured?_ofFields`).
-/

import Mathlib.Data.List.Nodup
import PagePress.Proofs.Json.Document
import PagePress.Template.Render

namespace PagePress

/-- Putting an entry among others loses none of them. -/
theorem Dictionary.insert_perm {α : Type} (key : Text) (value : α) (es : List (Text × α)) :
    (insert key value es).Perm ((key, value) :: es) := by
  induction es with
  | nil => exact .refl _
  | cons e es ih =>
      obtain ⟨k, v⟩ := e
      rw [insert]
      split
      · exact .refl _
      · exact (ih.cons (k, v)).trans (.swap (key, value) (k, v) es)

namespace Json

/-- The object with the given texts as its members. -/
def ofFields (fields : List (Text × Text)) : Json :=
  .object (fields.map fun f => (f.1, .string f.2))

/-- The members of an object of texts whose text is not empty. -/
def filledMembers (fields : List (Text × Text)) : List (Text × Json) :=
  (fields.filter fun f => !f.2.isEmpty).map fun f => (f.1, .string f.2)

/-! ## Sorting and pruning -/

/-- Members with different keys are only put in order. -/
theorem sortedMembers_perm (ms : List (Text × Json)) (h : (ms.map Prod.fst).Nodup) :
    (sortedMembers ms).Perm (ms.map fun m => (m.1, m.2.sorted)) := by
  induction ms with
  | nil => exact .refl _
  | cons m ms ih =>
      obtain ⟨k, v⟩ := m
      rw [List.map_cons, List.nodup_cons] at h
      have hperm := ih h.2
      -- the key does not occur again, so the member is put in
      have hnone : ¬ ((sortedMembers ms).lookup k).isSome = true := by
        rw [List.lookup_isSome_iff]
        rintro ⟨m, hm, hk⟩
        obtain ⟨m', hm', rfl⟩ := List.mem_map.1 (hperm.mem_iff.1 hm)
        exact h.1 (List.mem_map.2 ⟨m', hm', (eq_of_beq hk).symm⟩)
      rw [sortedMembers, if_neg hnone]
      exact (Dictionary.insert_perm k v.sorted _).trans (hperm.cons _)

theorem sortedItems_eq (vs : List Json) : sortedItems vs = vs.map sorted := by
  induction vs with
  | nil => rfl
  | cons v vs ih => rw [sortedItems, ih, List.map_cons]

theorem pruneMembers_eq (ms : List (Text × Json)) :
    pruneMembers ms = (ms.filter fun m => !m.2.isEmptyField).map fun m => (m.1, m.2.prune) := by
  induction ms with
  | nil => rfl
  | cons m ms ih =>
      obtain ⟨k, v⟩ := m
      rw [pruneMembers, ih, List.filter_cons]
      cases v.isEmptyField <;> rfl

/-! ## Objects of texts -/

theorem isNumberless_ofFields (fields : List (Text × Text)) :
    (ofFields fields).isNumberless = true :=
  membersNumberless_iff.2 (List.forall_mem_map.2 fun _ _ => rfl)

theorem depth_ofFields (fields : List (Text × Text)) : (ofFields fields).depth ≤ 1 :=
  Nat.succ_le_succ (membersDepth_le_iff.2 (List.forall_mem_map.2 fun _ _ => Nat.le_refl 0))

/-- An object of texts is read back with its members in order. -/
theorem read?_ofFields {fields : List (Text × Text)} (h : (fields.map Prod.fst).Nodup) :
    ∃ members, read? (ofFields fields).write = some (.object members) ∧
      members.Perm (fields.map fun f => (f.1, .string f.2)) := by
  refine ⟨sortedMembers (fields.map fun f => (f.1, .string f.2)), ?_, ?_⟩
  · exact read?_write (isNumberless_ofFields fields)
      (Nat.le_trans (depth_ofFields fields) (by decide))
  · have hperm := sortedMembers_perm (fields.map fun f => (f.1, Json.string f.2))
      (by rw [List.map_map]; exact h)
    rw [List.map_map] at hperm
    exact hperm

/-- Structured text with texts as its members has those that are not empty. -/
theorem parseStructured?_ofFields {fields : List (Text × Text)}
    (h : (fields.map Prod.fst).Nodup) :
    ∃ members, parseStructured? (ofFields fields).write = some (.object members) ∧
      members.Perm (filledMembers fields) := by
  obtain ⟨members, hread, hperm⟩ := read?_ofFields h
  refine ⟨pruneMembers members, ?_, ?_⟩
  · rw [parseStructured?, hread]
    rfl
  · -- a text is its own pruned form, and it is empty as a field when it is empty
    rw [pruneMembers_eq]
    have hfilter := (hperm.filter fun m => !m.2.isEmptyField).map fun m => (m.1, m.2.prune)
    rw [List.filter_map, List.map_map] at hfilter
    exact hfilter

end Json

end PagePress
