/-
  PagePress.Proofs.Variable.Path

  Paths, how they are written and where they lead.

  A text is a path exactly if it is segments with dots between them
  (`VarPath.parse?_isSome_iff`), and reading and displaying are inverse
  (`VarPath.parse?_eq_some_iff`).  A path leads to a value through the innermost
  scope that binds its first segment, and from there through the fields of maps
  (`Context.Leads`).  So a path means the same whether it was read or is given
  with its dots (`VarPath.parse?_leads`).
-/

import PagePress.Proofs.Text.Split
import PagePress.Variable.Context

namespace PagePress

/-! ## Paths as they are written -/

theorem isSegmentChar_iff {c : Char} : isSegmentChar c = true ↔
    Text.isBlank c = false ∧ c ∉ ['\'', '"', '{', '}'] ∧ c ≠ '.' := by
  simp only [isSegmentChar, Bool.and_eq_true, Bool.not_eq_true', bne_iff_ne, ne_eq, List.mem_cons,
    List.not_mem_nil, or_false, not_or, and_assoc]

theorem isSegment_iff {t : Text} :
    isSegment t = true ↔ t ≠ [] ∧ ∀ c ∈ t, isSegmentChar c = true := by
  rw [isSegment, Bool.and_eq_true, List.all_eq_true, Bool.not_eq_true', List.isEmpty_eq_false_iff]

theorem isPath_iff {segments : List Text} :
    isPath segments = true ↔ segments ≠ [] ∧ ∀ s ∈ segments, isSegment s = true := by
  rw [isPath, Bool.and_eq_true, List.all_eq_true, Bool.not_eq_true', List.isEmpty_eq_false_iff]

namespace VarPath

variable {t : Text} {p : VarPath}

theorem parse?_eq_some_iff_splitOn : parse? t = some p ↔ Text.splitOn '.' t = p.segments := by
  obtain ⟨segments, hpath⟩ := p
  rw [parse?]
  constructor
  · intro h
    split at h
    · exact congrArg VarPath.segments (Option.some.inj h)
    · exact absurd h.symm (Option.some_ne_none _)
  · rintro rfl
    rw [dif_pos hpath]

/-- Paths are found again between the dots with which they are displayed. -/
theorem splitOn_display (p : VarPath) : Text.splitOn '.' p.display = p.segments := by
  obtain ⟨hne, hsegments⟩ := isPath_iff.1 p.isPath_segments
  refine Text.splitOn_intercalate (fun segment hsegment hmem => ?_) hne
  have hchars := (isSegment_iff.1 (hsegments segment hsegment)).2
  exact absurd (hchars '.' hmem) (by decide)

/-- A text is read as the path that is displayed by it. -/
theorem parse?_eq_some_iff : parse? t = some p ↔ p.display = t := by
  rw [parse?_eq_some_iff_splitOn]
  constructor
  · intro h
    rw [display, ← h, Text.intercalate_splitOn]
  · rintro rfl
    exact p.splitOn_display

/-- A path is read as it is displayed. -/
theorem parse?_display (p : VarPath) : parse? p.display = some p := parse?_eq_some_iff.2 rfl

theorem isSegmentChar_of_parse? {c : Char} (h : parse? t = some p) (hc : c ∈ t) :
    c = '.' ∨ isSegmentChar c = true := by
  by_cases hdot : c = '.'
  · exact .inl hdot
  · obtain ⟨segment, hsegment, hmem⟩ := Text.exists_mem_splitOn hc hdot
    rw [parse?_eq_some_iff_splitOn.1 h] at hsegment
    have hsegments := (isPath_iff.1 p.isPath_segments).2
    exact .inr ((isSegment_iff.1 (hsegments segment hsegment)).2 c hmem)

theorem parse?_isSome_iff : (parse? t).isSome = true ↔
    ∃ segments, isPath segments = true ∧ ['.'].intercalate segments = t := by
  rw [Option.isSome_iff_exists]
  constructor
  · rintro ⟨p, hp⟩
    exact ⟨p.segments, p.isPath_segments, parse?_eq_some_iff.1 hp⟩
  · rintro ⟨segments, hpath, hdisplay⟩
    exact ⟨⟨segments, hpath⟩, parse?_eq_some_iff.2 hdisplay⟩

end VarPath

/-! ## Where paths lead -/

/-- Keys lead from a value through the fields of maps. -/
inductive Value.Leads : Value → List Text → Value → Prop where
  | here (v : Value) : Leads v [] v
  | field {fields : List (Text × Value)} {key : Text} {keys : List Text} {u v : Value} :
      fields.lookup key = some u → Leads u keys v → Leads (.map fields) (key :: keys) v

theorem Value.at?_eq_some_iff {keys : List Text} {u v : Value} :
    u.at? keys = some v ↔ u.Leads keys v := by
  constructor
  · intro h
    induction keys generalizing u with
    | nil =>
        obtain rfl := Option.some.inj h
        exact .here u
    | cons key keys ih =>
        cases u with
        | map fields =>
            obtain ⟨w, hlookup, hkeys⟩ := Option.bind_eq_some_iff.1 h
            exact .field hlookup (ih hkeys)
        | _ => exact absurd h.symm (Option.some_ne_none v)
  · intro h
    induction h with
    | here => rfl
    | field hlookup _ ih => exact Option.bind_eq_some_iff.2 ⟨_, hlookup, ih⟩

/-- Segments lead to a value of a context: the innermost scope that binds the first one decides
    what it means, and the others lead on from there.  Where they do not, scopes further out are
    not asked. -/
inductive Context.Leads (c : Context) : List Text → Value → Prop where
  | innermost {name : Text} {keys : List Text} {inside outside : List Scope} {scope : Scope}
      {u v : Value} : c.inner :: c.outer = inside ++ scope :: outside →
      (∀ s ∈ inside, s.lookup name = none) → scope.lookup name = some u → u.Leads keys v →
      Leads c (name :: keys) v

theorem Context.at?_eq_some_iff {c : Context} {segments : List Text} {v : Value} :
    c.at? segments = some v ↔ c.Leads segments v := by
  constructor
  · intro h
    cases segments with
    | nil => exact absurd h.symm (Option.some_ne_none v)
    | cons name keys =>
        obtain ⟨u, hname, hkeys⟩ := Option.bind_eq_some_iff.1 h
        obtain ⟨inside, scope, outside, hscopes, hscope, hinside⟩ :=
          List.findSome?_eq_some_iff.1 hname
        exact .innermost hscopes hinside hscope (Value.at?_eq_some_iff.1 hkeys)
  · rintro ⟨hscopes, hinside, hscope, hkeys⟩
    exact Option.bind_eq_some_iff.2 ⟨_, List.findSome?_eq_some_iff.2
      ⟨_, _, _, hscopes, hscope, hinside⟩, Value.at?_eq_some_iff.2 hkeys⟩

/-- A text is read as a path exactly if it is segments with dots between them.  The path is then
    displayed by the text and read again from it, and wherever it is looked up it leads to the same
    value as the text. -/
theorem VarPath.parse?_leads (t : Text) :
    ((parse? t).isSome = true ↔ ∃ segments : List Text, segments ≠ [] ∧
        (∀ s ∈ segments, s ≠ [] ∧
          ∀ c ∈ s, Text.isBlank c = false ∧ c ∉ ['\'', '"', '{', '}'] ∧ c ≠ '.') ∧
        ['.'].intercalate segments = t) ∧
      ∀ p, parse? t = some p → p.display = t ∧ parse? p.display = some p ∧
        ∀ c : Context, c.dotted? t = c.resolve p ∧
          ∀ v, c.resolve p = some v ↔ c.Leads p.segments v := by
  constructor
  · rw [parse?_isSome_iff]
    simp only [isPath_iff, isSegment_iff, isSegmentChar_iff, and_assoc]
  · intro p hp
    have hsplit := parse?_eq_some_iff_splitOn.1 hp
    refine ⟨parse?_eq_some_iff.1 hp, p.parse?_display, fun c => ⟨?_, fun v => ?_⟩⟩
    · rw [Context.dotted?, Context.resolve, hsplit]
    · exact Context.at?_eq_some_iff

/-- The scope outside binds the first segment too. -/
theorem VarPath.parse?_leads_hidden :
    let p : VarPath := ⟨["place", "address"], rfl⟩
    let c : Context :=
      ⟨[("place", .map [("address", .text "Mapo")])], [[("place", .text "Seoul")]]⟩
    parse? "place.address" = some p ∧ c.dotted? "place.address" = some (.text "Mapo") := by
  intro p c
  have hread : parse? "place.address" = some p := by decide
  refine ⟨hread, ?_⟩
  rw [(((parse?_leads "place.address").2 p hread).2.2 c).1]
  rfl

end PagePress
