/-
  PagePress.Proofs.Template.Classify

  What the text between the braces of a tag says about its form, and back.

  A tag that holds a path and nothing else is that variable, unless the path
  starts like another tag (`Tag.classify_display`); other tags that were
  written with arguments are read by these (`Tag.classify_written`).  A tag
  with a brace inside has one of
  the forms that hold text of any kind (`Tag.not_mem_of_classify`).  What is
  read as a marker is one for the cleanup (`Tag.isMarker_of_classify`), and
  what the cleanup takes for one is read as such if it has a name
  (`Tag.classify_of_isMarker`).
-/

import PagePress.Proofs.Template.Argument
import PagePress.Proofs.Text.Blank
import PagePress.Proofs.Variable.Path
import PagePress.Template.Cleanup

namespace PagePress

/-! ## Paths -/

theorem isSegmentChar_solid {c : Char} (h : isSegmentChar c = true) :
    Text.isBlank c = false ∧ Tag.isQuote c = false := by
  obtain ⟨hblank, hmarks, -⟩ := isSegmentChar_iff.1 h
  have hsingle := List.ne_of_not_mem_cons hmarks
  have hdouble := List.ne_of_not_mem_cons (List.not_mem_of_not_mem_cons hmarks)
  exact ⟨hblank, by rw [Tag.isQuote, beq_false_of_ne hsingle, beq_false_of_ne hdouble]; rfl⟩

namespace VarPath

theorem writable_display (p : VarPath) : (Tag.Argument.bare p.display).Writable := by
  have hread := p.parse?_display
  refine ⟨fun hnil => ?_, fun c hc => ?_⟩
  · -- the empty text is one empty segment
    rw [hnil] at hread
    exact absurd hread.symm (Option.some_ne_none p)
  · obtain rfl | hchar := isSegmentChar_of_parse? hread hc
    · exact ⟨by decide, by decide⟩
    · exact isSegmentChar_solid hchar

/-- A path that does not start like another tag and does not divide a block. -/
structure StandsAlone (p : VarPath) : Prop where
  head : ∀ c ∈ p.display.head?, c ≠ '!' ∧ c ≠ '>' ∧ c ≠ '#' ∧ c ≠ '/'
  ne_else : p.display ≠ "else".toList

instance (p : VarPath) : Decidable p.StandsAlone :=
  decidable_of_iff ((p.display.head?.all fun c => c != '!' && c != '>' && c != '#' && c != '/') ∧
      p.display ≠ "else".toList)
    ⟨fun h => ⟨by simpa [Option.all_eq_true, and_assoc] using h.1, h.2⟩,
      fun h => ⟨by simpa [Option.all_eq_true, and_assoc] using h.head, h.ne_else⟩⟩

/-- The path of one segment. -/
def ofSegment (t : Text) (h : isSegment t = true) : VarPath :=
  ⟨[t], by rw [isPath, List.all_cons, h]; rfl⟩

theorem display_ofSegment {t : Text} (h : isSegment t = true) : (ofSegment t h).display = t :=
  List.intercalate_singleton

end VarPath

/-! ## Arguments as they were written -/

namespace Tag

theorem writable_segment {t : Text} (h : isSegment t = true) : (Argument.bare t).Writable := by
  have hpath := (VarPath.ofSegment t h).writable_display
  rwa [VarPath.display_ofSegment] at hpath

/-- Text that does not start like another tag, and does not divide a block, is read by its
    arguments. -/
theorem classify_content {t : Text} (htrim : Text.trim t = t)
    (hhead : ∀ c ∈ t.head?, c ≠ '!' ∧ c ≠ '>' ∧ c ≠ '#' ∧ c ≠ '/') (helse : t ≠ "else".toList) :
    classify t = match arguments? t with
      | some arguments => ofArguments arguments
      | none => unknown := by
  rw [classify, htrim]
  split
  · exact absurd rfl (hhead _ rfl).1
  · exact absurd rfl (hhead _ rfl).2.1
  · exact absurd rfl (hhead _ rfl).2.2.1
  · exact absurd rfl (hhead _ rfl).2.2.2
  · exact if_neg helse

theorem classify_written {args : List Argument} (hne : args ≠ []) (h : ∀ a ∈ args, a.Writable)
    (hhead : ∀ c ∈ (written args).head?, c ≠ '!' ∧ c ≠ '>' ∧ c ≠ '#' ∧ c ≠ '/')
    (helse : written args ≠ "else".toList) : classify (written args) = ofArguments args := by
  obtain ⟨-, hfirst, hlast⟩ := written_solid_ends hne h
  rw [classify_content (Text.trim_eq_self hfirst hlast) hhead helse, arguments?_written h]

/-- A path alone is the tag of a variable, unless it starts like another tag or divides a block. -/
theorem classify_display {p : VarPath} (h : p.StandsAlone) : classify p.display = .variable p := by
  have hwritten : written [.bare p.display] = p.display := written_singleton _
  have hread := classify_written (List.cons_ne_nil (.bare p.display) [])
    (List.forall_mem_singleton.2 p.writable_display) (by rw [hwritten]; exact h.head)
    (by rw [hwritten]; exact h.ne_else)
  rw [hwritten] at hread
  rw [hread]
  simp only [ofArguments, p.parse?_display]

/-- A segment alone is the tag of a variable, unless it starts like another tag or divides a
    block. -/
theorem classify_segment {t : Text} (h : isSegment t = true)
    (hhead : ∀ c ∈ t.head?, c ≠ '!' ∧ c ≠ '>' ∧ c ≠ '#' ∧ c ≠ '/') (helse : t ≠ "else".toList) :
    classify t = .variable (.ofSegment t h) := by
  have hdisplay := VarPath.display_ofSegment h
  have halone : (VarPath.ofSegment t h).StandsAlone :=
    ⟨by rwa [hdisplay], by rwa [hdisplay]⟩
  have hread := classify_display halone
  rwa [hdisplay] at hread

/-- The arguments of a particle reference. -/
def particleArguments (p : VarPath) (spec : Text) : List Argument :=
  [.bare "josa", .bare p.display, .quoted spec]

theorem written_particleArguments (p : VarPath) (spec : Text) :
    written (particleArguments p spec) = "josa " ++ p.display ++ " '" ++ spec ++ "'" := by
  rw [particleArguments, written_cons _ (List.cons_ne_nil _ _),
    written_cons _ (List.cons_ne_nil _ _), written_singleton]
  simp [Argument.written]

/-- A keyword with arguments behind it is read by these. -/
theorem classify_reference {keyword : Text} {first : Char} {args : List Argument}
    (hkeyword : (Argument.bare keyword).Writable) (hhead : keyword.head? = some first)
    (hfirst : first ≠ '!' ∧ first ≠ '>' ∧ first ≠ '#' ∧ first ≠ '/') (hne : args ≠ [])
    (h : ∀ a ∈ args, a.Writable) :
    classify (written (.bare keyword :: args)) = ofArguments (.bare keyword :: args) := by
  apply classify_written (List.cons_ne_nil _ _) (List.forall_mem_cons.2 ⟨hkeyword, h⟩)
  · rw [written_cons _ hne, List.head?_append_of_ne_nil _ hkeyword.solid_ends.1]
    intro c hc
    rw [Option.mem_def, Argument.written, hhead, Option.some.injEq] at hc
    rwa [← hc]
  · -- there is no blank in the word that divides a block
    intro helse
    have hblank : ' ' ∈ written (.bare keyword :: args) := by
      rw [written_cons _ hne]
      exact List.mem_append_right _ List.mem_cons_self
    rw [helse] at hblank
    exact absurd hblank (by decide)

/-- The keyword, a path and a spec in quotation marks are the tag of a particle. -/
theorem classify_particle (p : VarPath) {spec : Text} (h : '\'' ∉ spec) :
    classify (written (particleArguments p spec)) = .particle p spec := by
  have hwritable : ∀ a ∈ [Argument.bare p.display, .quoted spec], a.Writable :=
    List.forall_mem_cons.2 ⟨p.writable_display, List.forall_mem_singleton.2 h⟩
  have hne : [Argument.bare p.display, .quoted spec] ≠ [] := List.cons_ne_nil _ _
  have hhead : "josa".toList.head? = some 'j' := rfl
  rw [particleArguments,
    classify_reference (writable_segment (by decide)) hhead (by decide) hne hwritable]
  simp only [ofArguments, Argument.path?, p.parse?_display]
  rfl

end Tag

/-! ## Braces inside tags -/

namespace Tag

/-- The forms that hold text in which any character may stand. -/
def holdsText : Tag → Bool
  | .particle .. | .pattern .. | .partialMarker _ | .comment _ | .unknown => true
  | .variable _ | .openIf _ | .otherwise | .closeIf | .openEach _ | .closeEach => false

/-- A single bare argument is all there is between blanks. -/
theorem mem_of_arguments? {t head : Text} {c : Char} (h : arguments? t = some [.bare head])
    (hc : c ∈ t) (hblank : Text.isBlank c = false) : c ∈ head := by
  fun_induction arguments? t with
  | case1 => exact absurd hc List.not_mem_nil
  | case2 d t hd ih =>
      rcases List.mem_cons.1 hc with rfl | hc
      · rw [hd] at hblank
        exact Bool.noConfusion hblank
      · exact ih h hc
  | case3 => exact absurd h.symm (Option.some_ne_none _)
  | case4 =>
      obtain ⟨args, -, hcons⟩ := Option.map_eq_some_iff.1 h
      exact Argument.noConfusion (List.cons.inj hcons).1
  | case5 => exact absurd h.symm (Option.some_ne_none _)
  | case6 => exact absurd h.symm (Option.some_ne_none _)
  | case7 d t hd hq bare hbare ih =>
      obtain ⟨args, hargs, hcons⟩ := Option.map_eq_some_iff.1 h
      obtain ⟨hhead, rfl⟩ := List.cons.inj hcons
      rw [← Argument.bare.inj hhead]
      -- behind the argument there are only blanks
      rw [← List.takeWhile_append_dropWhile (p := isSolid) (l := t), ← List.cons_append,
        List.mem_append] at hc
      rcases hc with hc | hc
      · exact hc
      · rw [arguments?_eq_nil_iff.1 hargs c hc] at hblank
        exact Bool.noConfusion hblank

/-- Only a single bare argument that is a path makes a tag that holds no other text. -/
theorem eq_bare_of_ofArguments {args : List Argument} (h : (ofArguments args).holdsText = false) :
    ∃ head path, args = [.bare head] ∧ VarPath.parse? head = some path := by
  unfold ofArguments at h
  split at h
  · split at h
    · exact ⟨_, _, rfl, ‹_›⟩
    · exact Bool.noConfusion h
  · split_ifs at h
    · split at h <;> exact Bool.noConfusion h
    · exact Bool.noConfusion h
    · exact Bool.noConfusion h
  · split_ifs at h <;> exact Bool.noConfusion h
  · split_ifs at h
    · split at h <;> exact Bool.noConfusion h
    · exact Bool.noConfusion h
  · exact Bool.noConfusion h

section Brace

variable {brace : Char} (hbrace : brace = '{' ∨ brace = '}')

include hbrace

/-- In a path there are no braces. -/
theorem not_mem_of_parse? {t : Text} {path : VarPath} (h : VarPath.parse? t = some path) :
    brace ∉ t := by
  intro hmem
  rcases VarPath.isSegmentChar_of_parse? h hmem with rfl | hchar
  · exact absurd hbrace (by decide)
  · rcases hbrace with rfl | rfl <;> exact absurd hchar (by decide)

theorem isBlank_brace : Text.isBlank brace = false := by
  rcases hbrace with rfl | rfl <;> decide

theorem not_mem_keyword {t : Text}
    (h : t = "if".toList ∨ t = "each".toList ∨ t = "else".toList) : brace ∉ t := by
  rcases hbrace with rfl | rfl <;> rcases h with rfl | rfl | rfl <;> decide

theorem not_mem_of_ofOpener {t : Text} (h : (ofOpener t).holdsText = false) : brace ∉ t := by
  intro hmem
  rw [← List.takeWhile_append_dropWhile (p := isSolid) (l := t), List.mem_append] at hmem
  unfold ofOpener at h
  simp only at h
  split at h
  · exact Bool.noConfusion h
  · rename_i path hpath
    rcases hmem with hmem | hmem
    · -- the keyword is one of two
      split_ifs at h with hif heach
      · exact not_mem_keyword hbrace (.inl hif) hmem
      · exact not_mem_keyword hbrace (.inr (.inl heach)) hmem
      · exact Bool.noConfusion h
    · -- what follows it is a blank and a path
      have hhead := List.head?_dropWhile_not isSolid t
      have hblank := isBlank_brace hbrace
      cases hrest : t.dropWhile isSolid with
      | nil =>
          rw [hrest] at hmem
          exact List.not_mem_nil hmem
      | cons d rest =>
          rw [hrest] at hmem hhead hpath
          rcases List.mem_cons.1 hmem with rfl | hmem
          · have hsolid : isSolid brace = false := hhead
            rw [isSolid, hblank] at hsolid
            exact Bool.noConfusion hsolid
          · exact not_mem_of_parse? hbrace hpath (Text.mem_trim hmem hblank)

theorem not_mem_of_ofCloser {t : Text} (h : (ofCloser t).holdsText = false) : brace ∉ t := by
  intro hmem
  have htrim := Text.mem_trim hmem (isBlank_brace hbrace)
  unfold ofCloser at h
  simp only at h
  split_ifs at h with hif heach
  · exact not_mem_keyword hbrace (.inl hif) htrim
  · exact not_mem_keyword hbrace (.inr (.inl heach)) htrim
  · exact Bool.noConfusion h

/-- A brace stands only in tags that hold text. -/
theorem not_mem_of_classify {body : Text} (h : (classify body).holdsText = false) :
    brace ∉ body := by
  intro hmem
  have hblank := isBlank_brace hbrace
  have htrim := Text.mem_trim hmem hblank
  unfold classify at h
  split at h
  · exact Bool.noConfusion h
  · split at h <;> exact Bool.noConfusion h
  · rename_i opener heq
    rw [heq] at htrim
    have hmark : brace ≠ '#' := by rcases hbrace with rfl | rfl <;> decide
    exact not_mem_of_ofOpener hbrace h (List.mem_of_ne_of_mem hmark htrim)
  · rename_i closer heq
    rw [heq] at htrim
    have hmark : brace ≠ '/' := by rcases hbrace with rfl | rfl <;> decide
    exact not_mem_of_ofCloser hbrace h (List.mem_of_ne_of_mem hmark htrim)
  · split_ifs at h with helse
    · exact not_mem_keyword hbrace (.inr (.inr helse)) htrim
    · split at h
      · rename_i args hargs
        obtain ⟨head, path, rfl, hpath⟩ := eq_bare_of_ofArguments h
        exact not_mem_of_parse? hbrace hpath (mem_of_arguments? hargs htrim hblank)
      · exact Bool.noConfusion h

end Brace

end Tag

/-! ## Markers -/

theorem Cleanup.isMarker_iff {body : Text} :
    isMarker body = true ↔ ∃ name, Text.trim body = '>' :: name := by
  rw [isMarker, ← Text.trim_head?_eq, beq_iff_eq]
  constructor
  · intro h
    cases htrim : Text.trim body with
    | nil =>
        rw [htrim] at h
        exact absurd h.symm (Option.some_ne_none _)
    | cons c name =>
        rw [htrim] at h
        obtain rfl := Option.some.inj h
        exact ⟨name, rfl⟩
  · rintro ⟨name, h⟩
    rw [h]
    rfl

/-- A marker has a name, or nothing but the sign stands between its braces. -/
theorem Tag.classify_of_isMarker {body : Text} (h : Cleanup.isMarker body = true) :
    (∃ name, classify body = .partialMarker name) ∨
      classify body = .unknown ∧ Text.trim body = ['>'] := by
  obtain ⟨name, htrim⟩ := Cleanup.isMarker_iff.1 h
  unfold classify
  rw [htrim]
  simp only
  cases hname : Text.trim name with
  | cons c rest => exact .inl ⟨c :: rest, rfl⟩
  | nil =>
      refine .inr ⟨rfl, ?_⟩
      cases name with
      | nil => rfl
      | cons c rest =>
          -- trimmed text does not end with a blank
          have hlast : (c :: rest).getLast (List.cons_ne_nil c rest) ∈ (Text.trim body).getLast? := by
            rw [htrim, List.getLast?_cons_cons, List.getLast?_eq_some_getLast]
            rfl
          have hsolid := Text.trim_getLast? body _ hlast
          have hmem := Text.mem_trim (List.getLast_mem (List.cons_ne_nil c rest)) hsolid
          rw [hname] at hmem
          exact absurd hmem List.not_mem_nil

theorem Tag.ofArguments_ne_partialMarker (args : List Argument) (name : Text) :
    ofArguments args ≠ .partialMarker name := by
  intro h
  unfold ofArguments at h
  split at h
  · split at h <;> exact Tag.noConfusion h
  · split_ifs at h
    split at h <;> exact Tag.noConfusion h
  · split_ifs at h
  · split_ifs at h
    split at h <;> exact Tag.noConfusion h
  · exact Tag.noConfusion h

/-- What is read as a marker is one for the cleanup too. -/
theorem Tag.isMarker_of_classify {body name : Text} (h : classify body = .partialMarker name) :
    Cleanup.isMarker body = true := by
  unfold classify at h
  split at h
  · exact Tag.noConfusion h
  · exact Cleanup.isMarker_iff.2 ⟨_, ‹_›⟩
  · unfold ofOpener at h
    simp only at h
    split at h
    · exact Tag.noConfusion h
    · split_ifs at h
  · unfold ofCloser at h
    simp only at h
    split_ifs at h
  · split_ifs at h
    split at h
    · exact absurd h (ofArguments_ne_partialMarker _ name)
    · exact Tag.noConfusion h

end PagePress
