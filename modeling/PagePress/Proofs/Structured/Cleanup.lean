/-
  PagePress.Proofs.Structured.Cleanup

  What the cleanup does to the written form of an object of texts.

  A leftover tag lies inside one text or reaches from one text into a later
  one; taking it out leaves the written form of an object with fewer
  characters and no further member (`Rest.removes_document`).  Runs of blanks
  lie inside the texts.  So cleaned up, an object of texts is an object of
  texts: the same one, or one with fewer characters (`cleanup_document`).
-/

import PagePress.Proofs.Structured.Object

namespace PagePress

open Relation (ReflTransGen)
open Text (isBlank isInlineBlank)
open Cleanup (isBrace TagFree Removes startsWith squeezeBlanks SingleBlanks)
open Json (isPlain escape escapeChar label afterText ofFields)

/-! ## Objects that shrink -/

/-- The second rest has no member that the first has not, and it has fewer characters unless it is
    the first one. -/
structure Shrinks (r r' : Rest) : Prop where
  keys : r'.keys.Sublist r.keys
  size : r' = r ∨ r'.size < r.size

namespace Shrinks

theorem refl (r : Rest) : Shrinks r r := ⟨.refl _, .inl rfl⟩

theorem trans {r₁ r₂ r₃ : Rest} (h : Shrinks r₁ r₂) (h' : Shrinks r₂ r₃) : Shrinks r₁ r₃ := by
  refine ⟨h'.keys.trans h.keys, ?_⟩
  rcases h'.size with rfl | h'
  · exact h.size
  · rcases h.size with rfl | h
    · exact .inr h'
    · exact .inr (h'.trans h)

theorem named {r r' : Rest} (h : Shrinks r r') (hr : r.Named) : r'.Named :=
  fun k hk => hr k (h.keys.subset hk)

theorem char {v w : Text} {fs gs : List (Text × Text)} (c : Char) (h : Shrinks ⟨v, fs⟩ ⟨w, gs⟩) :
    Shrinks ⟨c :: v, fs⟩ ⟨c :: w, gs⟩ := by
  refine ⟨h.keys, ?_⟩
  rcases h.size with heq | hlt
  · obtain ⟨rfl, rfl⟩ := Rest.mk.inj heq
    exact .inl rfl
  · simp only [Rest.size, List.length_cons] at hlt ⊢
    exact .inr (by omega)

theorem next {v w : Text} {fs gs : List (Text × Text)} (k : Text)
    (h : Shrinks ⟨v, fs⟩ ⟨w, gs⟩) : Shrinks ⟨[], (k, v) :: fs⟩ ⟨[], (k, w) :: gs⟩ := by
  refine ⟨h.keys.cons_cons k, ?_⟩
  rcases h.size with heq | hlt
  · obtain ⟨rfl, rfl⟩ := Rest.mk.inj heq
    exact .inl rfl
  · simp only [Rest.size, List.length_nil, textSize_cons] at hlt ⊢
    exact .inr (by omega)

end Shrinks

namespace Rest

/-- The written form of the object whose first member has a given name, where the rest is taken from
    inside that member on. -/
def document (k : Text) (r : Rest) : Text := '{' :: (label k ++ r.write)

theorem document_eq (k : Text) (r : Rest) :
    r.document k = (ofFields ((k, r.text) :: r.fields)).write := (Json.write_ofFields ..).symm

/-! ## Leftover tags -/

/-- A rest that starts with a brace has it as the first character of its text. -/
theorem text_of_write_brace {r : Rest} {y : Text} {b : Char} (hb : isBrace b = true)
    (h : r.write = b :: y) : ∃ v, r.text = b :: v ∧ y = write ⟨v, r.fields⟩ := by
  cases r with
  | last =>
      obtain ⟨rfl, -⟩ := List.cons.inj h
      exact absurd hb (by decide)
  | next k v fs =>
      obtain ⟨rfl, -⟩ := List.cons.inj h
      exact absurd hb (by decide)
  | char c v fs =>
      rw [write_cons] at h
      cases hp : isPlain c with
      | false =>
          obtain ⟨x, hx, -⟩ := exists_of_append_eq_append_cons (x := [])
            ((quiet_escapeChar hp).not_mem hb) h
          have hne : escapeChar c ≠ [] := by
            have hw := Json.written_escapeChar c
            generalize escapeChar c = w at hw
            cases hw <;> exact List.cons_ne_nil _ _
          exact absurd (List.append_eq_nil_iff.1 hx.symm).1 hne
      | true =>
          rw [Json.escapeChar_plain hp] at h
          obtain ⟨rfl, hy⟩ := List.cons.inj h
          exact ⟨v, rfl, hy.symm⟩

/-- Without one of its leftover tags, an object of texts is one with fewer characters. -/
theorem removes_document {k : Text} {r : Rest} (hk : IsFieldName k) (hr : r.Named) {u : Text}
    (h : Removes (r.document k) u) :
    ∃ r' : Rest, u = r'.document k ∧ r'.keys.Sublist r.keys ∧ r'.size < r.size := by
  generalize ht : r.document k = t at h
  obtain ⟨before, after, -, -⟩ := h
  rename_i content
  have hbrace : isBrace '{' = true ∧ isBrace '}' = true := by decide
  rw [braced_append] at ht
  -- the tag starts in one of the texts
  obtain ⟨x, rfl, hx⟩ : ∃ x, before = '{' :: (label k ++ x) ∧
      r.write = x ++ '{' :: '{' :: (content ++ '}' :: '}' :: after) := by
    rcases before with _ | ⟨c, before⟩
    · have hsecond := (List.cons.inj ht).2
      obtain ⟨hquote, -⟩ := List.cons.inj hsecond
      exact absurd hquote (by decide)
    · obtain ⟨hc, ht⟩ := List.cons.inj ht
      obtain ⟨x, hx, hw⟩ := exists_of_append_eq_append_cons
        (hk.quiet_label.not_mem hbrace.1) ht
      exact ⟨x, by rw [← hc, hx], hw⟩
  obtain ⟨r₁, h₁, hw₁⟩ := reads_of_brace hr hbrace.1 (List.cons_ne_nil _ _) hx
  -- and it ends in one of them
  have hafter : after ≠ [] := by
    rintro rfl
    obtain ⟨t, ht⟩ := r₁.write_ends
    rw [hw₁, ← List.cons_append, ← List.cons_append] at ht
    exact absurd (List.append_inj_right' ht rfl) (by decide)
  have hclose : r₁.write = ('{' :: '{' :: (content ++ ['}'])) ++ '}' :: after := by
    rw [hw₁]
    simp only [List.cons_append, List.append_assoc, List.nil_append]
  have hr₁ : r₁.Named := fun k' hk' => hr k' (h₁.keys_sublist.subset hk')
  obtain ⟨r₂, h₂, hw₂⟩ := reads_of_brace hr₁ hbrace.2 hafter hclose
  obtain ⟨v, hv, rfl⟩ := text_of_write_brace hbrace.2 hw₂
  -- what precedes the tag goes on with what follows it
  have hkeys : (keys ⟨v, r₂.fields⟩).Sublist r₁.keys := h₂.keys_sublist
  obtain ⟨p, hp, hsub, hsize⟩ := h₁.rebuild ⟨v, r₂.fields⟩ hkeys
  refine ⟨p, ?_, hsub, ?_⟩
  · rw [document, hp]
    simp only [List.cons_append, List.append_assoc]
  · have hle := h₂.size_le
    simp only [size, hv, List.length_cons] at hle hsize ⊢
    omega

/-- Without its leftover tags, an object of texts is an object of texts. -/
theorem strip_document {k : Text} {r : Rest} (hk : IsFieldName k) (hr : r.Named) :
    ∃ r' : Rest, Cleanup.strip (r.document k) = r'.document k ∧ Shrinks r r' := by
  -- on the removals: each is one from an object that has shrunk so far
  have hreach : ∀ {t : Text}, ReflTransGen Removes (r.document k) t →
      ∃ r' : Rest, t = r'.document k ∧ Shrinks r r' := by
    intro t h
    induction h with
    | refl => exact ⟨r, rfl, .refl r⟩
    | tail _ hstep ih =>
        obtain ⟨r₁, rfl, h₁⟩ := ih
        obtain ⟨r₂, rfl, hkeys, hsize⟩ := removes_document hk (h₁.named hr) hstep
        exact ⟨r₂, rfl, h₁.trans ⟨hkeys, .inr hsize⟩⟩
  exact hreach (Cleanup.strip_reaches _)

end Rest

/-! ## Blanks -/

/-- A blank that is written as it is: those below U+0020 are escaped. -/
def isLooseBlank (c : Char) : Bool := isBlank c && isPlain c

/-- No two blanks that are written as they are stand next to each other. -/
def RunFree (t : Text) : Prop :=
  t.IsChain fun a b => isLooseBlank a = true → isLooseBlank b = false

theorem isInlineBlank_of_plain {c : Char} (h : isPlain c = true) :
    isInlineBlank c = isLooseBlank c := by
  have hn : c ≠ '\n' := by
    rintro rfl
    exact absurd h (by decide)
  rw [isInlineBlank, isLooseBlank, h, bne_iff_ne.2 hn]

theorem Quiet.isInlineBlank {p : Text} (h : Quiet p) {c : Char} (hc : c ∈ p) :
    isInlineBlank c = false := by
  rw [Text.isInlineBlank, (h c hc).2]
  rfl

theorem Quiet.squeezeBlanks_append {p : Text} (h : Quiet p) (t : Text) :
    squeezeBlanks (p ++ t) = p ++ squeezeBlanks t := by
  induction p with
  | nil => rfl
  | cons c p ih =>
      have hc := h.isInlineBlank List.mem_cons_self
      rw [List.cons_append, squeezeBlanks, hc, Bool.false_and,
        ih fun d hd => h d (List.mem_cons_of_mem c hd)]
      rfl

/-- A text in which no two characters of a kind stand next to each other, from its first character
    on. -/
theorem isChain_lone_cons {p : Char → Bool} {c : Char} {t : Text} :
    List.IsChain (fun a b => p a = true → p b = false) (c :: t) ↔
      (p c = true → startsWith p t = false) ∧
        t.IsChain fun a b => p a = true → p b = false := by
  rw [List.isChain_cons]
  refine and_congr_left fun _ => ⟨fun h hc => ?_, fun h d hd hc => ?_⟩
  · cases t with
    | nil => rfl
    | cons d t => exact h d rfl hc
  · have hstart := h hc
    rw [startsWith, Option.mem_def.1 hd] at hstart
    exact hstart

theorem Quiet.singleBlanks_append {p : Text} (h : Quiet p) (t : Text) :
    SingleBlanks (p ++ t) ↔ SingleBlanks t := by
  induction p with
  | nil => rfl
  | cons c p ih =>
      have hc := h.isInlineBlank List.mem_cons_self
      rw [List.cons_append, SingleBlanks, isChain_lone_cons, hc,
        ← SingleBlanks, ih fun d hd => h d (List.mem_cons_of_mem c hd)]
      exact ⟨fun hs => hs.2, fun hs => ⟨fun hf => Bool.noConfusion hf, hs⟩⟩

namespace Rest

/-- A rest starts with a blank exactly if its text starts with one that is written as it is. -/
theorem startsWith_write (r : Rest) :
    startsWith isInlineBlank r.write = startsWith isLooseBlank r.text := by
  cases r with
  | last => rfl
  | next k v fs => rfl
  | char c v fs =>
      rw [write_cons]
      cases hp : isPlain c with
      | true =>
          rw [Json.escapeChar_plain hp]
          exact isInlineBlank_of_plain hp
      | false =>
          have hloose : isLooseBlank c = false := by rw [isLooseBlank, hp, Bool.and_false]
          have hw := Json.written_escapeChar c
          generalize escapeChar c = w at hw
          cases hw with
          | plain h => rw [h] at hp; exact Bool.noConfusion hp
          | short => exact hloose.symm
          | unicode => exact hloose.symm

theorem write_plain {c : Char} (h : isPlain c = true) (v : Text) (fs : List (Text × Text)) :
    write ⟨c :: v, fs⟩ = c :: write ⟨v, fs⟩ := by
  rw [write_cons, Json.escapeChar_plain h]
  rfl

/-- With its runs of blanks squeezed, the rest of an object is the rest of an object. -/
theorem squeezeBlanks_write {r : Rest} (hr : r.Named) :
    ∃ r' : Rest, squeezeBlanks r.write = r'.write ∧ Shrinks r r' := by
  induction r with
  | last => exact ⟨⟨[], []⟩, rfl, .refl _⟩
  | next k v fs ih =>
      obtain ⟨⟨w, gs⟩, hw, h⟩ := ih fun k' hk' => hr k' (List.mem_cons_of_mem k hk')
      refine ⟨⟨[], (k, w) :: gs⟩, ?_, h.next k⟩
      have hq := (hr k List.mem_cons_self).quiet_separator
      rw [write_next, write_next, ← List.cons_append, ← List.cons_append,
        hq.squeezeBlanks_append, hw]
      rfl
  | char c v fs ih =>
      obtain ⟨⟨w, gs⟩, hw, h⟩ := ih hr
      -- an escape holds no blank, so only a plain character can belong to a run
      cases hp : isPlain c with
      | false =>
          refine ⟨⟨c :: w, gs⟩, ?_, h.char c⟩
          rw [write_cons, write_cons, (quiet_escapeChar hp).squeezeBlanks_append, hw]
      | true =>
          rw [write_plain hp, squeezeBlanks, hw]
          split
          · rename_i hrun
            rw [Bool.and_eq_true] at hrun
            -- what is left of the run is the first character of the text that remains
            obtain ⟨b, u, hb, hblank⟩ := Cleanup.squeezeBlanks_starts hrun.2
            have hstart : startsWith isLooseBlank w = true := by
              rw [← startsWith_write ⟨w, gs⟩, ← hw, hb]
              exact hblank
            obtain ⟨d, w, rfl, hd⟩ := Cleanup.exists_of_startsWith hstart
            rw [isLooseBlank, Bool.and_eq_true] at hd
            refine ⟨⟨' ' :: w, gs⟩, ?_, h.keys, .inr ?_⟩
            · rw [write_plain hd.2, write_plain (by decide)]
              rfl
            · have hle : size ⟨d :: w, gs⟩ ≤ size ⟨v, fs⟩ := by
                rcases h.size with heq | hlt
                · exact Nat.le_of_eq (congrArg size heq)
                · exact Nat.le_of_lt hlt
              simp only [size, List.length_cons] at hle ⊢
              omega
          · exact ⟨⟨c :: w, gs⟩, (write_plain hp w gs).symm, h.char c⟩

/-- No two blanks of a rest stand next to each other if no two loose ones of a text do. -/
theorem singleBlanks_write_iff {r : Rest} (hr : r.Named) :
    SingleBlanks r.write ↔ RunFree r.text ∧ ∀ f ∈ r.fields, RunFree f.2 := by
  induction r with
  | last =>
      have hend : SingleBlanks ['"', '}'] := List.isChain_pair.2 (by decide)
      exact ⟨fun _ => ⟨.nil, fun f hf => by cases hf⟩, fun _ => hend⟩
  | next k v fs ih =>
      have hq := (hr k List.mem_cons_self).quiet_separator
      have htail := ih fun k' hk' => hr k' (List.mem_cons_of_mem k hk')
      rw [write_next, ← List.cons_append, ← List.cons_append, hq.singleBlanks_append, htail]
      simp only [List.forall_mem_cons]
      exact ⟨fun h => ⟨.nil, h⟩, fun h => h.2⟩
  | char c v fs ih =>
      have hcons : RunFree (c :: v) ↔
          (isLooseBlank c = true → startsWith isLooseBlank v = false) ∧ RunFree v :=
        isChain_lone_cons
      rw [hcons, and_assoc, ← ih hr]
      cases hp : isPlain c with
      | false =>
          have hloose : isLooseBlank c = false := by rw [isLooseBlank, hp, Bool.and_false]
          rw [write_cons, (quiet_escapeChar hp).singleBlanks_append, hloose]
          exact ⟨fun h => ⟨fun hf => Bool.noConfusion hf, h⟩, fun h => h.2⟩
      | true =>
          rw [write_plain hp, SingleBlanks, isChain_lone_cons, isInlineBlank_of_plain hp,
            startsWith_write]
          exact Iff.rfl

theorem singleBlanks_document_iff {k : Text} {r : Rest} (hk : IsFieldName k) (hr : r.Named) :
    SingleBlanks (r.document k) ↔ RunFree r.text ∧ ∀ f ∈ r.fields, RunFree f.2 := by
  have hbrace : SingleBlanks ('{' :: (label k ++ r.write)) ↔ SingleBlanks (label k ++ r.write) :=
    isChain_lone_cons.trans ⟨fun h => h.2, fun h => ⟨fun hf => Bool.noConfusion hf, h⟩⟩
  rw [document, hbrace, hk.quiet_label.singleBlanks_append, singleBlanks_write_iff hr]

/-! ## The whole cleanup -/

theorem ne_newline_of_mem_write {r : Rest} (hr : r.Named) : ∀ c ∈ r.write, c ≠ '\n' := by
  have hblank : ∀ {p : Text}, Quiet p → ∀ c ∈ p, c ≠ '\n' := by
    rintro p hp c hc rfl
    exact absurd (hp _ hc).2 (by decide)
  induction r with
  | last => exact List.forall_mem_cons.2 ⟨by decide, List.forall_mem_singleton.2 (by decide)⟩
  | next k v fs ih =>
      have hq := (hr k List.mem_cons_self).quiet_separator
      have htail := ih fun k' hk' => hr k' (List.mem_cons_of_mem k hk')
      rw [write_next, ← List.cons_append, ← List.cons_append]
      intro c hc
      exact (List.mem_append.1 hc).elim (hblank hq c) (htail c)
  | char c v fs ih =>
      rw [write_cons]
      intro d hd
      rcases List.mem_append.1 hd with hd | hd
      · cases hp : isPlain c with
        | false => exact hblank (quiet_escapeChar hp) d hd
        | true =>
            rw [Json.escapeChar_plain hp, List.mem_singleton] at hd
            rintro rfl
            rw [← hd] at hp
            exact absurd hp (by decide)
      · exact ih hr d hd

theorem not_mem_newline {k : Text} {r : Rest} (hk : IsFieldName k) (hr : r.Named) :
    '\n' ∉ r.document k := by
  rw [document, List.mem_cons, List.mem_append, not_or, not_or]
  refine ⟨by decide, fun h => ?_, fun h => ne_newline_of_mem_write hr _ h rfl⟩
  exact absurd (hk.quiet_label _ h).2 (by decide)

theorem trim_document (k : Text) (r : Rest) : Text.trim (r.document k) = r.document k := by
  refine Text.trim_eq_self (fun c hc => ?_) (fun c hc => ?_)
  · obtain rfl := Option.mem_some.1 hc
    decide
  · obtain ⟨t, ht⟩ := r.write_ends
    have hdoc : r.document k = ('{' :: (label k ++ t) ++ ['"']) ++ ['}'] := by
      rw [document, ht]
      simp only [List.cons_append, List.append_assoc, List.nil_append]
    rw [hdoc, List.getLast?_append] at hc
    obtain rfl := Option.mem_some.1 hc
    decide

/-- Cleaned up, an object of texts is an object of texts: the same one, or one with fewer
    characters. -/
theorem cleanup_document {k : Text} {r : Rest} (hk : IsFieldName k) (hr : r.Named) :
    ∃ r' : Rest, cleanup (r.document k) = r'.document k ∧ Shrinks r r' := by
  obtain ⟨r₁, hstrip, h₁⟩ := strip_document hk hr
  obtain ⟨r₂, hsqueeze, h₂⟩ := squeezeBlanks_write (h₁.named hr)
  have hn₁ := not_mem_newline hk (h₁.named hr)
  have hn₂ := not_mem_newline hk ((h₁.trans h₂).named hr)
  have hblanks : squeezeBlanks (r₁.document k) = r₂.document k := by
    rw [document, squeezeBlanks, hk.quiet_label.squeezeBlanks_append, hsqueeze]
    rfl
  refine ⟨r₂, ?_, h₁.trans h₂⟩
  -- an object of texts is written on one line, so the steps that deal with lines do nothing
  rw [cleanup, hstrip, Cleanup.unifyLineEnds_of_not_mem hn₁, hblanks,
    Cleanup.trimLineEnds_of_not_mem hn₂, Cleanup.limitEmptyLines_of_not_mem hn₂, trim_document]

/-- Cleanup leaves an object of texts alone exactly if it has no leftover tag and no text in it has
    a run of loose blanks. -/
theorem cleanup_document_eq_iff {k : Text} {r : Rest} (hk : IsFieldName k) (hr : r.Named) :
    cleanup (r.document k) = r.document k ↔
      TagFree (r.document k) ∧ RunFree r.text ∧ ∀ f ∈ r.fields, RunFree f.2 := by
  rw [← singleBlanks_document_iff hk hr]
  have hn := not_mem_newline hk hr
  constructor
  · intro h
    have hnormal : Normal (r.document k) := by
      rw [← h]
      exact normal_cleanup _
    exact ⟨hnormal.tagFree, hnormal.loneBlanks.single⟩
  · rintro ⟨htag, hsingle⟩
    rw [cleanup, Cleanup.strip_eq_self_iff.2 htag, Cleanup.unifyLineEnds_of_not_mem hn,
      hsingle.squeezeBlanks_eq, Cleanup.trimLineEnds_of_not_mem hn,
      Cleanup.limitEmptyLines_of_not_mem hn, trim_document]

end Rest

/-! ## Objects of texts -/

variable {fields : List (Text × Text)}

/-- A list of fields as its first name and the rest from inside the first text on. -/
theorem exists_rest (hne : fields ≠ []) (hnames : ∀ f ∈ fields, IsFieldName f.1) :
    ∃ (k : Text) (r : Rest), fields = (k, r.text) :: r.fields ∧ IsFieldName k ∧ r.Named := by
  obtain ⟨⟨k, v⟩, fields, rfl⟩ := List.exists_cons_of_ne_nil hne
  obtain ⟨hk, hrest⟩ := List.forall_mem_cons.1 hnames
  refine ⟨k, ⟨v, fields⟩, rfl, hk, fun k' hk' => ?_⟩
  obtain ⟨f, hf, rfl⟩ := List.mem_map.1 hk'
  exact hrest f hf

/-- Cleaned up, an object of texts has no further member, and fewer characters unless it is the
    same object. -/
theorem cleanup_ofFields (hne : fields ≠ []) (hnames : ∀ f ∈ fields, IsFieldName f.1) :
    ∃ kept, cleanup (ofFields fields).write = (ofFields kept).write ∧
      (kept.map Prod.fst).Sublist (fields.map Prod.fst) ∧
      (kept = fields ∨ textSize kept < textSize fields) := by
  obtain ⟨k, r, rfl, hk, hr⟩ := exists_rest hne hnames
  obtain ⟨r', hclean, hkeys, hsize⟩ := Rest.cleanup_document hk hr
  rw [Rest.document_eq, Rest.document_eq] at hclean
  refine ⟨(k, r'.text) :: r'.fields, hclean, hkeys.cons_cons k, ?_⟩
  rcases hsize with rfl | hlt
  · exact .inl rfl
  · rw [textSize_cons, textSize_cons]
    exact .inr hlt

/-- Cleanup leaves an object of texts alone exactly if it has no leftover tag and no text in it has
    a run of loose blanks. -/
theorem cleanup_ofFields_eq_iff (hne : fields ≠ []) (hnames : ∀ f ∈ fields, IsFieldName f.1) :
    cleanup (ofFields fields).write = (ofFields fields).write ↔
      TagFree (ofFields fields).write ∧ ∀ f ∈ fields, RunFree f.2 := by
  obtain ⟨k, r, rfl, hk, hr⟩ := exists_rest hne hnames
  have hiff := Rest.cleanup_document_eq_iff hk hr
  rw [Rest.document_eq] at hiff
  rw [List.forall_mem_cons]
  exact hiff

end PagePress
