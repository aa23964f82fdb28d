/-
  PagePress.Proofs.Diagnostic.Codec

  Reading back written diagnostics.

  A diagnostic is written as a record of six fields (`Diagnostic.fields`).  A
  code or a problem that is absent and details or hints that are empty are left
  out, and what is left out is read as absent or empty.  So a diagnostic is
  read from any object in which each of its fields is found as it is in the
  record (`Diagnostic.ofJson?_of_fields`): from the written object, from the
  sorted one, and from their texts (`Diagnostic.ofJson?_written`).
-/

import PagePress.Proofs.Json.Record

namespace PagePress

/-! ## Details -/

namespace Detail

theorem ofJson?_toJson (d : Detail) : ofJson? d.toJson = some d := by
  obtain ⟨kind, content⟩ := d
  cases kind <;> rfl

theorem ofJson?_sorted (d : Detail) : ofJson? d.toJson.sorted = some d := by
  obtain ⟨kind, content⟩ := d
  cases kind <;> rfl

end Detail

/-! ## The record of a diagnostic -/

/-- The field for a list that is left out when it is empty. -/
def Json.listField : List Json → Option Json
  | [] => none
  | items => some (.array items)

theorem Json.eq_of_listField {items : List Json} {v : Json} (h : listField items = some v) :
    .array items = v := by
  cases items with
  | nil => exact absurd h.symm (Option.some_ne_none v)
  | cons => exact Option.some.inj h

namespace Diagnostic

/-- The fields of a diagnostic, those included that are left out. -/
def fields (d : Diagnostic) : List (Text × Option Json) :=
  [("code", d.code.map .string), ("title", some (.string d.title)),
    ("kind", some (.string d.severity.name)), ("problem", d.problem.map .string),
    ("details", Json.listField (d.details.map Detail.toJson)),
    ("hints", Json.listField (d.hints.map .string))]

variable (d : Diagnostic)

theorem nodup_keys_fields : (d.fields.map Prod.fst).Nodup := by
  show (["code", "title", "kind", "problem", "details", "hints"] : List Text).Nodup
  decide

theorem toJson_eq : d.toJson = .object (Json.present d.fields) := by
  obtain ⟨code, title, severity, problem, details, hints⟩ := d
  cases code <;> cases problem <;> cases details <;> cases hints <;> rfl

/-- The members of a written diagnostic are texts, but for the details and the hints. -/
theorem forall_members (P : Json → Prop) (hstring : ∀ t, P (.string t))
    (hdetails : P (.array (d.details.map Detail.toJson)))
    (hhints : P (.array (d.hints.map .string))) : ∀ m ∈ Json.present d.fields, P m.2 := by
  have htext {t : Option Text} {v : Json} (h : some v = t.map .string) : P v := by
    obtain ⟨t, -, rfl⟩ := Option.map_eq_some_iff.1 h.symm
    exact hstring t
  rintro ⟨key, v⟩ hm
  have hfield := Json.mem_present.1 hm
  simp only [fields, List.mem_cons, List.not_mem_nil, Prod.mk.injEq, or_false] at hfield
  rcases hfield with ⟨-, h⟩ | ⟨-, h⟩ | ⟨-, h⟩ | ⟨-, h⟩ | ⟨-, h⟩ | ⟨-, h⟩
  · exact htext h
  · exact Option.some.inj h ▸ hstring _
  · exact Option.some.inj h ▸ hstring _
  · exact htext h
  · exact Json.eq_of_listField h.symm ▸ hdetails
  · exact Json.eq_of_listField h.symm ▸ hhints

theorem isNumberless_toJson : d.toJson.isNumberless = true := by
  rw [toJson_eq]
  refine Json.membersNumberless_iff.2
    (d.forall_members (fun v => v.isNumberless = true) (fun _ => rfl) ?_ ?_)
  · exact Json.allNumberless_iff.2 (List.forall_mem_map.2 fun _ _ => rfl)
  · exact Json.allNumberless_iff.2 (List.forall_mem_map.2 fun _ _ => rfl)

/-- The details are objects in an array in an object. -/
theorem depth_toJson : d.toJson.depth ≤ 3 := by
  rw [toJson_eq]
  refine Nat.succ_le_succ (Json.membersDepth_le_iff.2
    (d.forall_members (fun v => v.depth ≤ 2) (fun _ => Nat.zero_le 2) ?_ ?_))
  · exact Nat.succ_le_succ
      (Json.itemsDepth_le_iff.2 (List.forall_mem_map.2 fun _ _ => Nat.le_refl 1))
  · exact Nat.succ_le_succ
      (Json.itemsDepth_le_iff.2 (List.forall_mem_map.2 fun _ _ => Nat.zero_le 1))

end Diagnostic

/-! ## Reading -/

theorem Severity.ofName?_name (s : Severity) : ofName? s.name = some s := by
  cases s <;> rfl

namespace Json

section

variable {f : Json → Json}

theorem asNullableText?_map (hstring : ∀ t, f (.string t) = .string t) (t : Option Text) :
    (((t.map Json.string).map f).getD .null).asNullableText? = some t := by
  cases t with
  | none => rfl
  | some t => exact congrArg asNullableText? (hstring t)

/-- The elements of a list that may have been left out are read one by one. -/
theorem elim_listField {α : Type} {write : α → Json} {read? : Json → Option α}
    {readAll? : Json → Option (List α)} (hall : ∀ items, readAll? (.array items) = items.mapM read?)
    (harray : ∀ items, f (.array items) = .array (items.map f))
    (hread : ∀ a, read? (f (write a)) = some a) (items : List α) :
    ((listField (items.map write)).map f).elim (some []) readAll? = some items := by
  have hitems : ((items.map write).map f).mapM read? = some items := by
    induction items with
    | nil => rfl
    | cons a items ih =>
        rw [List.map_cons, List.map_cons, List.mapM_cons, hread, ih]
        rfl
  cases items with
  | nil => rfl
  | cons a items =>
      show readAll? (f (.array ((a :: items).map write))) = _
      rw [harray, hall, hitems]

end

end Json

namespace Diagnostic

variable {d : Diagnostic}

theorem ofFields?_eq {code title kind problem : Json} {details hints : Option Json}
    (hcode : code.asNullableText? = some d.code) (htitle : title.asText? = some d.title)
    (hkind : kind.asChoice? = some d.severity.name)
    (hproblem : problem.asNullableText? = some d.problem)
    (hdetails : details.elim (some []) Detail.listOfJson? = some d.details)
    (hhints : hints.elim (some []) Json.asTexts? = some d.hints) :
    ofFields? code title kind problem details hints = some d := by
  obtain ⟨_, _, severity, _, _, _⟩ := d
  have hseverity := severity.ofName?_name
  -- lists that are left out are read as empty ones
  cases details <;> cases hints <;> simp_all [ofFields?]

/-- A diagnostic is read from an object in which each of its fields is found, be it as it was
    written or sorted. -/
theorem ofJson?_of_fields {f : Json → Json} (hstring : ∀ t, f (.string t) = .string t)
    (harray : ∀ items, f (.array items) = .array (items.map f))
    (hdetail : ∀ x : Detail, Detail.ofJson? (f x.toJson) = some x)
    {ms : List (Text × Json)} (h : ∀ x ∈ d.fields, Json.field? x.1 ms = some (x.2.map f)) :
    ofJson? (.object ms) = some d := by
  simp only [fields, List.forall_mem_cons, Option.map_some, hstring] at h
  obtain ⟨hcode, htitle, hkind, hproblem, hdetails, hhints, -⟩ := h
  rw [ofJson?, hcode, htitle, hkind, hproblem, hdetails, hhints]
  exact ofFields?_eq (Json.asNullableText?_map hstring d.code) rfl rfl
    (Json.asNullableText?_map hstring d.problem)
    (Json.elim_listField (fun _ => rfl) harray hdetail d.details)
    (Json.elim_listField (fun _ => rfl) harray (fun t => congrArg Json.asText? (hstring t)) d.hints)

theorem ofJson?_toJson (d : Diagnostic) : ofJson? d.toJson = some d := by
  rw [toJson_eq]
  refine ofJson?_of_fields (f := id) (fun _ => rfl) (fun items => ?_) Detail.ofJson?_toJson ?_
  · exact congrArg Json.array (List.map_id items).symm
  · intro x hx
    rw [Json.field?_present d.nodup_keys_fields hx, Option.map_id]
    rfl

theorem ofJson?_sorted (d : Diagnostic) : ofJson? d.toJson.sorted = some d := by
  have hkeys := d.nodup_keys_fields
  have hpresent : ((Json.present d.fields).map Prod.fst).Nodup :=
    hkeys.sublist (Json.keys_present_sublist d.fields)
  rw [toJson_eq]
  refine ofJson?_of_fields (f := Json.sorted) (fun _ => rfl) (fun items => ?_)
    Detail.ofJson?_sorted fun x hx => ?_
  · exact congrArg Json.array (Json.sortedItems_eq items)
  · rw [Json.field?_sortedMembers hpresent, Json.field?_present hkeys hx]
    rfl

/-- A written diagnostic is read as it was: from the object, from the object with its members
    sorted, and from the text of the object, under any limit of nesting from three on.  The object
    has a title and a kind, and a code, a problem, details and hints only if there are any. -/
theorem ofJson?_written (d : Diagnostic) :
    ofJson? d.toJson = some d ∧ ofJson? d.toJson.sorted = some d ∧
      (∀ limit, (Json.parseWithin? (limit + 3) d.toJson.write).bind ofJson? = some d) ∧
      (Json.read? d.toJson.write).bind ofJson? = some d ∧
      ∃ members, d.toJson = .object members ∧
        members.map Prod.fst =
          (if d.code = none then [] else ["code".toList]) ++ ["title".toList, "kind".toList] ++
            (if d.problem = none then [] else ["problem".toList]) ++
            (if d.details = [] then [] else ["details".toList]) ++
            (if d.hints = [] then [] else ["hints".toList]) := by
  have hnumberless := d.isNumberless_toJson
  have hdepth := d.depth_toJson
  refine ⟨ofJson?_toJson d, ofJson?_sorted d, fun limit => ?_, ?_, _, d.toJson_eq, ?_⟩
  · rw [Json.parseWithin?_write hnumberless (Nat.le_add_left_of_le hdepth)]
    exact ofJson?_toJson d
  · rw [Json.read?_write hnumberless (Nat.le_trans hdepth (by decide))]
    exact ofJson?_sorted d
  · obtain ⟨code, title, severity, problem, details, hints⟩ := d
    cases code <;> cases problem <;> cases details <;> cases hints <;> rfl

end Diagnostic

end PagePress
