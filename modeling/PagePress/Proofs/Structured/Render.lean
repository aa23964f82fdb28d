/-
  PagePress.Proofs.Structured.Render

  Rendering an object whose texts are variables.

  Evaluation gives the written form of the object with the values as its
  texts (`evaluate_slots`).  What the cleanup does to it decides which values
  arrive as they are.
-/

import Mathlib.Data.List.Perm.Basic
import PagePress.Proofs.Structured.Cleanup
import PagePress.Proofs.Template.Evaluation
import PagePress.Proofs.Template.Classify
import PagePress.Proofs.Template.Tiling

namespace PagePress

open Json (isPlain escape label afterText ofFields)

/-! ## Fields as variables -/

namespace IsFieldName

variable {k : Text}

theorem isSegment (h : IsFieldName k) : isSegment k = true := by
  have hall : ∀ c ∈ k, isSegmentChar c = true := fun c hc =>
    Text.isLower_induction (P := fun c => isSegmentChar c = true) (by decide) (h.lower c hc)
  exact isSegment_iff.2 ⟨h.nonempty, hall⟩

/-- The tag with a name of a field between its braces is the variable of that name. -/
theorem classify (h : IsFieldName k) : Tag.classify k = .variable (.ofSegment k h.isSegment) := by
  refine Tag.classify_segment h.isSegment (fun c hc => ?_) h.ne_else
  exact Text.isLower_induction (P := fun c => c ≠ '!' ∧ c ≠ '>' ∧ c ≠ '#' ∧ c ≠ '/') (by decide)
    (h.lower c (List.mem_of_mem_head? hc))

theorem no_brace (h : IsFieldName k) : '{' ∉ k ∧ '}' ∉ k := by
  refine ⟨fun hmem => ?_, fun hmem => ?_⟩
  · exact absurd (Text.isLower_solid (h.lower _ hmem)).1 (by decide)
  · exact absurd (Text.isLower_solid (h.lower _ hmem)).1 (by decide)

theorem escape_braced (h : IsFieldName k) : escape (braced k) = braced k := by
  refine Json.escape_plain fun c hc => ?_
  have hbrace : isPlain '{' = true ∧ isPlain '}' = true := by decide
  simp only [braced, List.mem_cons, List.mem_append, List.not_mem_nil, or_false, or_self,
    or_self_left] at hc
  rcases hc with rfl | hc | rfl
  · exact hbrace.1
  · exact (Text.isLower_solid (h.lower c hc)).2.2
  · exact hbrace.2

end IsFieldName

/-- Fields with the variables of the same names in the place of their texts. -/
def slots (fields : List (Text × Text)) : List (Text × Text) :=
  fields.map fun f => (f.1, braced f.1)

example : (ofFields (slots [("name".toList, []), ("phone".toList, [])])).write =
    "\x7b\"name\":\"\x7b\x7bname\x7d\x7d\",\"phone\":\"\x7b\x7bphone\x7d\x7d\"\x7d".toList := by
  decide

/-- Each field has a name that it can have, and its text is what that name means in a context. -/
def Binds (c : Context) (fields : List (Text × Text)) : Prop :=
  ∀ f ∈ fields, IsFieldName f.1 ∧ c.get? f.1 = some (.text f.2)

/-! ## Evaluation -/

/-- The pieces of a text have a derivation, wherever they stand, that gives an output. -/
def Gives (r : Renderer) (expand? : Option Expansion) (c : Context) (t output : Text) : Prop :=
  ∀ start, ∃ ns, Derives (Token.place start (Piece.scan [] t)) ns ∧
    (r.evalNodes expand? .json c ns).text = output

section Evaluation

variable {r : Renderer} {expand? : Option Expansion} {c : Context}

theorem Gives.plain {t : Text} (hne : t ≠ []) (h : '{' ∉ t) : Gives r expand? c t t := by
  intro start
  have hscan : Piece.scan [] t = [.plain t] := by
    rw [Piece.scan_plain (Text.cutAtPair_eq_none h), List.nil_append, Piece.ofPlain, if_neg]
    rw [List.isEmpty_iff]
    exact hne
  rw [hscan]
  exact ⟨_, .singleton 0 rfl, List.append_nil t⟩

/-- Plain text, the tag of a field and text that gives an output give the plain text, the escaped
    value and that output. -/
theorem Gives.field {p k v t output : Text} (hp : p ≠ [])
    (hopen : Text.cutAtPair '{' (p ++ (braced k ++ t)) = some (p, k ++ '}' :: '}' :: t))
    (hk : IsFieldName k) (hv : c.get? k = some (.text v)) (h : Gives r expand? c t output) :
    Gives r expand? c (p ++ (braced k ++ t)) (p ++ (escape v ++ output)) := by
  intro start
  have hscan : Piece.scan [] (p ++ (braced k ++ t)) = .plain p :: .tag k :: Piece.scan [] t := by
    rw [Piece.scan_tag hopen hk.no_brace, List.nil_append, Piece.ofPlain, if_neg]
    · rfl
    · rw [List.isEmpty_iff]
      exact hp
  -- two leaves stand before the derivation of what follows
  obtain ⟨ns, hns, htext⟩ := h (start + Text.bytes p + Text.bytes (braced k))
  have hleaf : (Token.mk (braced k) ⟨start + Text.bytes p, start + Text.bytes p +
      Text.bytes (braced k)⟩ (Token.tagOf (.tag k))).leaf? =
        some (.variable (.ofSegment k hk.isSegment)) := by
    rw [Token.leaf?, Token.tagOf, hk.classify]
    rfl
  have hvalue : c.textOf? (.ofSegment k hk.isSegment) = some v := by
    rw [Context.textOf?, Context.resolve, VarPath.ofSegment, Context.at?, hv]
    rfl
  have heval : (r.evalLeaf expand? .json c (braced k)
      (.variable (.ofSegment k hk.isSegment))).text = escape v := by
    rw [Renderer.evalLeaf, hvalue]
    rfl
  rw [hscan]
  refine ⟨_, .leaf 0 rfl (.leaf 1 hleaf hns), ?_⟩
  show p ++ ((r.evalLeaf expand? .json c (braced k) (.variable (.ofSegment k hk.isSegment))).text ++
    (r.evalNodes expand? .json c ns).text) = p ++ (escape v ++ output)
  rw [heval, htext]

/-- What follows a text gives itself with the values in the place of the variables. -/
theorem gives_afterText {fields : List (Text × Text)} (h : Binds c fields) :
    Gives r expand? c (afterText (slots fields)) (afterText fields) := by
  induction fields with
  | nil => exact .plain (List.cons_ne_nil _ _) (by decide)
  | cons f fields ih =>
      obtain ⟨k, v⟩ := f
      obtain ⟨⟨hk, hv⟩, hrest⟩ := List.forall_mem_cons.1 h
      have hopen : Text.cutAtPair '{'
          ('"' :: ',' :: label k ++ (braced k ++ afterText (slots fields))) =
            some ('"' :: ',' :: label k, k ++ '}' :: '}' :: afterText (slots fields)) := by
        rw [braced_append]
        exact Text.cutAtPair_append_pair (hk.quiet_separator.not_mem (by decide)) _
      show Gives r expand? c
        ('"' :: ',' :: label k ++ (escape (braced k) ++ afterText (slots fields)))
        ('"' :: ',' :: label k ++ (escape v ++ afterText fields))
      rw [hk.escape_braced]
      exact .field (List.cons_ne_nil _ _) hopen hk hv (ih hrest)

/-- An object whose texts are variables gives the object with their values as its texts. -/
theorem gives_write {fields : List (Text × Text)} (hne : fields ≠ []) (h : Binds c fields) :
    Gives r expand? c (ofFields (slots fields)).write (ofFields fields).write := by
  obtain ⟨⟨k, v⟩, fields, rfl⟩ := List.exists_cons_of_ne_nil hne
  obtain ⟨⟨hk, hv⟩, hrest⟩ := List.forall_mem_cons.1 h
  have hopen : Text.cutAtPair '{' ('{' :: label k ++ (braced k ++ afterText (slots fields))) =
      some ('{' :: label k, k ++ '}' :: '}' :: afterText (slots fields)) := by
    have hcut := Text.cutAtPair_append_pair (hk.quiet_label.not_mem (b := '{') (by decide))
      (k ++ '}' :: '}' :: afterText (slots fields))
    -- behind the opening brace of the object stands a quotation mark
    have hfirst : Text.cutAtPair '{' ('{' :: (label k ++ braced k ++ afterText (slots fields))) =
        Option.map _ (Text.cutAtPair '{' (label k ++ braced k ++ afterText (slots fields))) :=
      Text.cutAtPair_cons_cons (b := '"') (by decide) _
    rw [List.cons_append, ← List.append_assoc, hfirst, List.append_assoc, braced_append,
      hcut]
    rfl
  show Gives r expand? c (ofFields ((k, braced k) :: slots fields)).write
    (ofFields ((k, v) :: fields)).write
  rw [Json.write_ofFields, Json.write_ofFields, hk.escape_braced]
  exact .field (List.cons_ne_nil _ _) hopen hk hv (gives_afterText hrest)

end Evaluation

/-- The output for an object whose texts are variables is the object with their values. -/
theorem evaluate_slots (r : Renderer) {c : Context} {fields : List (Text × Text)}
    (hne : fields ≠ []) (hb : Binds c fields) :
    (r.evaluate .json c (.compile (ofFields (slots fields)).write)).text =
      (ofFields fields).write := by
  have hgives : Gives r (r.expansion r.depthLimit) c _ _ := gives_write hne hb
  obtain ⟨ns, hns, htext⟩ := hgives 0
  rw [r.evaluate_of_derives .json hns c, htext]

/-! ## What arrives -/

theorem textSize_filter (fields : List (Text × Text)) :
    textSize (fields.filter fun f => !f.2.isEmpty) = textSize fields := by
  induction fields with
  | nil => rfl
  | cons f fields ih =>
      obtain ⟨k, v⟩ := f
      cases v with
      | nil => rw [List.filter_cons, textSize_cons, ← ih, List.length_nil, Nat.zero_add]; rfl
      | cons c v => rw [List.filter_cons, textSize_cons, ← ih, ← textSize_cons]; rfl

theorem textSize_perm {fields kept : List (Text × Text)} (h : kept.Perm fields) :
    textSize kept = textSize fields := by
  induction h with
  | nil => rfl
  | cons f _ ih => rw [textSize_cons, textSize_cons, ih]
  | swap f g l => simp only [textSize_cons, Nat.add_left_comm]
  | trans _ _ ih ih' => exact ih.trans ih'

/-- Objects with the same members have the same number of characters in them. -/
theorem textSize_eq_of_perm {fields kept : List (Text × Text)}
    (h : (Json.filledMembers kept).Perm (Json.filledMembers fields)) :
    textSize kept = textSize fields := by
  have hinj : Function.Injective fun f : Text × Text => (f.1, Json.string f.2) := by
    rintro ⟨k, v⟩ ⟨k', v'⟩ heq
    simp only [Prod.mk.injEq, Json.string.injEq] at heq
    rw [heq.1, heq.2]
  have hperm := (List.map_perm_map_iff hinj).1 h
  rw [← textSize_filter kept, ← textSize_filter fields]
  exact textSize_perm hperm

/-- Rendering an object whose texts are variables always gives an object.  Its members are the
    texts that are not empty in the cleaned-up object of the values, and these are the values
    themselves exactly if no leftover tag stands in that object and no value has a run of loose
    blanks. -/
theorem renderStructured_slots (r : Renderer) {c : Context} {fields : List (Text × Text)}
    (hne : fields ≠ []) (hkeys : (fields.map Prod.fst).Nodup) (hb : Binds c fields) :
    ∃ kept members,
      cleanup (ofFields fields).write = (ofFields kept).write ∧
      (kept.map Prod.fst).Sublist (fields.map Prod.fst) ∧
      r.renderStructured? c (ofFields (slots fields)).write = some (.object members) ∧
      members.Perm (Json.filledMembers kept) ∧
      (members.Perm (Json.filledMembers fields) ↔
        Cleanup.TagFree (ofFields fields).write ∧ ∀ f ∈ fields, RunFree f.2) := by
  have hnames : ∀ f ∈ fields, IsFieldName f.1 := fun f hf => (hb f hf).1
  obtain ⟨kept, hclean, hsub, hsize⟩ := cleanup_ofFields hne hnames
  obtain ⟨members, hparse, hperm⟩ := Json.parseStructured?_ofFields (hsub.nodup hkeys)
  refine ⟨kept, members, hclean, hsub, ?_, hperm, ?_⟩
  · rw [Renderer.renderStructured?, Renderer.structuredText, evaluate_slots r hne hb, hclean,
      hparse]
  rw [← cleanup_ofFields_eq_iff hne hnames]
  constructor
  · -- no character was lost, so the cleanup has left the object alone
    intro h
    have htotal := textSize_eq_of_perm (hperm.symm.trans h)
    rcases hsize with rfl | hlt
    · exact hclean
    · exact absurd htotal (Nat.ne_of_lt hlt)
  · -- the object that is read is the written one
    intro h
    obtain ⟨members', hparse', hperm'⟩ := Json.parseStructured?_ofFields hkeys
    rw [← h, hclean, hparse] at hparse'
    rw [Json.object.inj (Option.some.inj hparse')]
    exact hperm'

/-- A value with quotation marks and one that is empty. -/
theorem renderStructured_slots_quoted :
    let fields := [("name".toList, "say \"hi\"".toList), ("phone".toList, [])]
    let c : Context := { inner := fields.map fun f => (f.1, .text f.2) }
    let r : Renderer := ⟨{}, 0, defaultDepthLimit⟩
    fields ≠ [] ∧ (fields.map Prod.fst).Nodup ∧ Binds c fields ∧
    ∃ kept members,
      cleanup (ofFields fields).write = (ofFields kept).write ∧
      (kept.map Prod.fst).Sublist (fields.map Prod.fst) ∧
      r.renderStructured? c (ofFields (slots fields)).write = some (.object members) ∧
      members.Perm (Json.filledMembers kept) ∧
      (members.Perm (Json.filledMembers fields) ↔
        Cleanup.TagFree (ofFields fields).write ∧ ∀ f ∈ fields, RunFree f.2) := by
  intro fields c r
  have hne : fields ≠ [] := List.cons_ne_nil _ _
  have hkeys : (fields.map Prod.fst).Nodup := by decide
  have hb : Binds c fields := List.forall_mem_cons.2
    ⟨⟨by decide, rfl⟩, List.forall_mem_singleton.2 ⟨by decide, rfl⟩⟩
  exact ⟨hne, hkeys, hb, renderStructured_slots r hne hkeys hb⟩

/-- A value with two spaces in a row arrives with one. -/
theorem exists_value_squeezed :
    ¬ ∀ (r : Renderer) (c : Context) (fields : List (Text × Text)), fields ≠ [] →
      (fields.map Prod.fst).Nodup → Binds c fields →
      ∃ members, r.renderStructured? c (ofFields (slots fields)).write = some (.object members) ∧
        members.Perm (Json.filledMembers fields) := by
  intro h
  let c : Context := { inner := [("a".toList, .text "x  y".toList)] }
  have hb : Binds c [("a".toList, "x  y".toList)] :=
    List.forall_mem_singleton.2 ⟨by decide, rfl⟩
  have hclean : cleanup (ofFields [("a".toList, "x  y".toList)]).write =
      (ofFields [("a".toList, "x y".toList)]).write := by decide +kernel
  have hparse : parseStructured? (ofFields [("a".toList, "x y".toList)]).write =
      some (.object [("a".toList, .string "x y".toList)]) := by
    rw [parseStructured?, Json.read?_write rfl (by decide)]
    rfl
  have hrender : Renderer.renderStructured? ⟨{}, 0, defaultDepthLimit⟩ c
      (ofFields (slots [("a".toList, "x  y".toList)])).write =
        some (.object [("a".toList, .string "x y".toList)]) := by
    rw [Renderer.renderStructured?, Renderer.structuredText,
      evaluate_slots _ (List.cons_ne_nil _ _) hb, hclean, hparse]
  obtain ⟨members, hm, hperm⟩ := h _ c _ (List.cons_ne_nil _ _) (by decide) hb
  rw [hrender] at hm
  obtain rfl := Json.object.inj (Option.some.inj hm)
  have hmem := List.mem_singleton.1 (hperm.mem_iff.1 List.mem_cons_self)
  have htext : "x y".toList = "x  y".toList := Json.string.inj (Prod.mk.inj hmem).2
  exact absurd htext (by decide)

-- The braces of two values make a tag that reaches from one to the other.
example : Renderer.structuredText ⟨{}, 0, defaultDepthLimit⟩
    { inner := [("a".toList, .text ['{', '{']), ("b".toList, .text ['}', '}'])] }
    (ofFields (slots [("a".toList, ['{', '{']), ("b".toList, ['}', '}'])])).write =
      (ofFields [("a".toList, [])]).write := by decide +kernel

end PagePress
