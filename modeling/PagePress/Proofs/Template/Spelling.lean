/-
  PagePress.Proofs.Template.Spelling

  Tags as they are spelled.

  Each form of a tag has one spelling (`Tag.spelling`): its sign or keyword,
  then its parts, with one blank between any two and the texts of references in
  single quotation marks.  What stands between the braces is read as the tag
  that was spelled (`Tag.classify_spelling`), and the tag is all there is in
  its text (`Token.ofText_spelling`), unless a part would end it early or be
  taken for the start of another form (`Tag.Spelled`).
-/

import PagePress.Proofs.Template.Row

namespace PagePress

open Text (Unpaired)

namespace Tag

/-! ## Spellings -/

/-- What stands between the braces of a tag. -/
def spelling : Tag → Text
  | .variable path => path.display
  | .particle word spec => "josa " ++ word.display ++ " '" ++ spec ++ "'"
  | .pattern category sect none => "pattern '" ++ category ++ "' '" ++ sect ++ "'"
  | .pattern category sect (some word) =>
    "pattern '" ++ category ++ "' '" ++ sect ++ "' " ++ word.display
  | .openIf condition => "#if " ++ condition.display
  | .otherwise => "else"
  | .closeIf => "/if"
  | .openEach path => "#each " ++ path.display
  | .closeEach => "/each"
  | .partialMarker name => "> " ++ name
  | .comment remark => "! " ++ remark
  | .unknown => []

/-- Text that a quotation in a tag can hold. -/
structure Quotable (t : Text) : Prop where
  no_mark : '\'' ∉ t
  no_opening : ¬ ['{', '{'] <:+: t
  no_closing : ¬ ['}', '}'] <:+: t

/-- Text that can end a tag without quotation marks around it. -/
structure Unquoted (t : Text) : Prop where
  trimmed : Text.trim t = t
  no_opening : ¬ ['{', '{'] <:+: t
  no_closing : ¬ ['}', '}'] <:+: t
  last : t.getLast? ≠ some '}'

/-- A tag of some form whose parts can be told from its spelling. -/
def Spelled : Tag → Prop
  | .variable path => path.StandsAlone
  | .particle _ spec => Quotable spec
  | .pattern category sect _ => Quotable category ∧ Quotable sect
  | .partialMarker name => name ≠ [] ∧ Unquoted name
  | .comment remark => Unquoted remark
  | .openIf _ | .otherwise | .closeIf | .openEach _ | .closeEach => True
  | .unknown => False

/-! ## References -/

theorem Quotable.braceless {t : Text} (h : Quotable t) : (Argument.quoted t).Braceless :=
  ⟨Text.unpaired_iff.2 h.no_opening, Text.unpaired_iff.2 h.no_closing⟩

/-- The arguments of a pattern reference, its keyword left out. -/
def patternArguments (category sect : Text) (word : Option VarPath) : List Argument :=
  .quoted category :: .quoted sect :: (word.map fun path => .bare path.display).toList

theorem written_pattern (category sect : Text) (word : Option VarPath) :
    written (.bare "pattern" :: patternArguments category sect word) =
      (Tag.pattern category sect word).spelling := by
  rw [patternArguments, written_cons _ (List.cons_ne_nil _ _),
    written_cons _ (List.cons_ne_nil _ _)]
  cases word with
  | none =>
      show _ = "pattern '" ++ category ++ "' '" ++ sect ++ "'"
      rw [Option.map_none, Option.toList_none, written_singleton]
      simp [Argument.written]
  | some path =>
      show _ = "pattern '" ++ category ++ "' '" ++ sect ++ "' " ++ path.display
      rw [Option.map_some, Option.toList_some, written_cons _ (List.cons_ne_nil _ _),
        written_singleton]
      simp [Argument.written]

theorem forall_mem_patternArguments {P : Argument → Prop} {category sect : Text}
    (hcategory : P (.quoted category)) (hsect : P (.quoted sect))
    (hpath : ∀ path : VarPath, P (.bare path.display)) (word : Option VarPath) :
    ∀ a ∈ patternArguments category sect word, P a := by
  refine List.forall_mem_cons.2 ⟨hcategory, List.forall_mem_cons.2 ⟨hsect, fun a ha => ?_⟩⟩
  obtain ⟨path, -, rfl⟩ := Option.map_eq_some_iff.1 (Option.mem_toList.1 ha)
  exact hpath path

section Pattern

variable {category sect : Text} (hcategory : Quotable category) (hsect : Quotable sect)
  (word : Option VarPath)

include hcategory hsect

theorem classify_pattern :
    classify (Tag.pattern category sect word).spelling = .pattern category sect word := by
  have hwritable : ∀ a ∈ patternArguments category sect word, a.Writable :=
    forall_mem_patternArguments hcategory.no_mark hsect.no_mark VarPath.writable_display word
  have hne : patternArguments category sect word ≠ [] := List.cons_ne_nil _ _
  have hhead : "pattern".toList.head? = some 'p' := rfl
  rw [← written_pattern,
    classify_reference (writable_segment (by decide)) hhead (by decide) hne hwritable]
  cases word with
  | none => rfl
  | some path =>
      show ofArguments [.bare "pattern", .quoted category, .quoted sect, .bare path.display] = _
      simp only [ofArguments, Argument.path?, path.parse?_display]
      rfl

theorem enclosed_pattern : Enclosed (Tag.pattern category sect word).spelling := by
  rw [← written_pattern]
  apply enclosed_written
  exact List.forall_mem_cons.2 ⟨⟨by decide, by decide⟩,
    forall_mem_patternArguments hcategory.braceless hsect.braceless VarPath.braceless_display word⟩

end Pattern

/-! ## Openers -/

/-- What follows the number sign is a keyword up to the first blank, and a path. -/
theorem ofOpener_append {keyword : Text} (h : isSegment keyword = true) (path : VarPath) :
    ofOpener (keyword ++ ' ' :: path.display) =
      if keyword = "if" then .openIf path
      else if keyword = "each" then .openEach path
      else .unknown := by
  have hsolid : ∀ c ∈ keyword, isSolid c = true := by
    intro c hc
    rw [isSolid, ((writable_segment h).2 c hc).1]
    rfl
  have hblank : ¬ isSolid ' ' = true := by decide
  have htake : (keyword ++ ' ' :: path.display).takeWhile isSolid = keyword := by
    rw [List.takeWhile_append_of_pos hsolid, List.takeWhile_cons_of_neg hblank, List.append_nil]
  have hdrop : (keyword ++ ' ' :: path.display).dropWhile isSolid = ' ' :: path.display := by
    rw [List.dropWhile_append_of_pos hsolid, List.dropWhile_cons_of_neg hblank]
  obtain ⟨-, hfirst, hlast⟩ := path.writable_display.solid_ends
  have htrim : Text.trim path.display = path.display := Text.trim_eq_self hfirst hlast
  rw [ofOpener, htake, hdrop, List.drop_one, List.tail_cons, htrim, path.parse?_display]

theorem classify_opener (keyword : Text) (path : VarPath) :
    classify ('#' :: (keyword ++ ' ' :: path.display)) =
      ofOpener (keyword ++ ' ' :: path.display) := by
  obtain ⟨hne, -, hlast⟩ := path.writable_display.solid_ends
  have htrim : Text.trim (('#' :: (keyword ++ [' '])) ++ path.display) =
      ('#' :: (keyword ++ [' '])) ++ path.display := by
    apply Text.trim_append_eq_self (List.cons_ne_nil _ _) _ hne hlast
    intro c hc
    obtain rfl : '#' = c := Option.some.inj hc
    decide
  rw [List.cons_append, List.append_assoc, List.singleton_append] at htrim
  rw [classify, htrim]
  rfl

/-! ## Markers and remarks -/

/-- A sign, a blank and trimmed text have no blank at their ends. -/
theorem trim_signed {sign : Char} (hsign : Text.isBlank sign = false) {t : Text} (hne : t ≠ [])
    (h : Text.trim t = t) : Text.trim (sign :: ' ' :: t) = sign :: ' ' :: t := by
  apply Text.trim_append_eq_self (s := [sign, ' ']) (List.cons_ne_nil _ _) _ hne
  · rw [← h]
    exact Text.trim_getLast? t
  · intro c hc
    rwa [← Option.some.inj hc]

theorem trim_blank_cons {t : Text} (h : Text.trim t = t) : Text.trim (' ' :: t) = t := by
  rw [Text.trim_cons_blank (by decide), h]

theorem classify_partialMarker {name : Text} (hne : name ≠ []) (h : Text.trim name = name) :
    classify ('>' :: ' ' :: name) = .partialMarker name := by
  rw [classify, trim_signed (by decide) hne h]
  simp only [trim_blank_cons h]

theorem classify_comment {remark : Text} (h : Text.trim remark = remark) :
    classify ('!' :: ' ' :: remark) = .comment remark := by
  by_cases hne : remark = []
  · -- without a remark the blank behind the sign is trimmed
    rw [hne]
    decide
  · rw [classify, trim_signed (by decide) hne h]
    simp only [trim_blank_cons h]

theorem Unquoted.enclosed {t : Text} (h : Unquoted t) {sign : Char} (hopen : sign ≠ '{')
    (hclose : sign ≠ '}') : Enclosed (sign :: ' ' :: t) := by
  have hafter (brace : Char) (hsign : sign ≠ brace) (hblank : ' ' ≠ brace)
      (ht : ¬ [brace, brace] <:+: t) : Unpaired brace (sign :: ' ' :: t) :=
    Text.unpaired_cons.2 ⟨fun heq => absurd heq hsign,
      Text.unpaired_cons.2 ⟨fun heq => absurd heq hblank, Text.unpaired_iff.2 ht⟩⟩
  constructor
  · apply Text.unpaired_cons.2
    exact ⟨fun _ hhead => hopen (Option.some.inj hhead),
      hafter '{' hopen (by decide) h.no_opening⟩
  · apply Text.unpaired_append.2
    refine ⟨hafter '}' hclose (by decide) h.no_closing, List.isChain_singleton _, fun hlast => ?_⟩
    cases t with
    | nil =>
        have heq : ' ' = '}' := Option.some.inj hlast
        exact absurd heq (by decide)
    | cons c t =>
        rw [List.getLast?_cons_cons, List.getLast?_cons_cons] at hlast
        exact absurd hlast h.last

/-! ## Every form -/

/-- What stands between the braces is read as the tag that was spelled. -/
theorem classify_spelling {tag : Tag} (h : tag.Spelled) : classify tag.spelling = tag := by
  cases tag with
  | «variable» path => exact classify_display h
  | particle word spec =>
      show classify ("josa " ++ word.display ++ " '" ++ spec ++ "'") = _
      rw [← written_particleArguments, classify_particle word h.no_mark]
  | pattern category sect word => exact classify_pattern h.1 h.2 word
  | openIf condition =>
      have hread := classify_opener "if" condition
      rwa [ofOpener_append (by decide), if_pos rfl] at hread
  | otherwise => decide
  | closeIf => decide
  | openEach path =>
      have hread := classify_opener "each" path
      rwa [ofOpener_append (by decide), if_neg (by decide), if_pos rfl] at hread
  | closeEach => decide
  | partialMarker name => exact classify_partialMarker h.1 h.2.trimmed
  | comment remark => exact classify_comment h.trimmed
  | unknown => exact absurd h id

/-- The braces of a tag enclose its spelling. -/
theorem enclosed_spelling {tag : Tag} (h : tag.Spelled) : Enclosed tag.spelling := by
  have hopener (keyword : Text) (path : VarPath) (hkeyword : '{' ∉ keyword ∧ '}' ∉ keyword) :
      Enclosed (keyword ++ path.display) :=
    .of_not_mem (List.not_mem_append hkeyword.1 path.braceless_display.1)
      (List.not_mem_append hkeyword.2 path.braceless_display.2)
  cases tag with
  | «variable» path => exact hopener [] path ⟨by decide, by decide⟩
  | particle word spec =>
      show Enclosed ("josa " ++ word.display ++ " '" ++ spec ++ "'")
      rw [← written_particleArguments]
      apply enclosed_written
      exact List.forall_mem_cons.2 ⟨⟨by decide, by decide⟩,
        List.forall_mem_cons.2 ⟨word.braceless_display, List.forall_mem_singleton.2 h.braceless⟩⟩
  | pattern category sect word => exact enclosed_pattern h.1 h.2 word
  | openIf condition => exact hopener "#if " condition ⟨by decide, by decide⟩
  | openEach path => exact hopener "#each " path ⟨by decide, by decide⟩
  | otherwise | closeIf | closeEach => exact .of_not_mem (by decide) (by decide)
  | partialMarker name => exact h.2.enclosed (by decide) (by decide)
  | comment remark => exact h.enclosed (by decide) (by decide)
  | unknown => exact absurd h id

end Tag

/-! ## Tokens -/

namespace Token

/-- A template that is one tag has one token. -/
theorem ofText_braced {body : Text} (h : Enclosed body) :
    ofText (braced body) = [⟨braced body, ⟨0, Text.bytes (braced body)⟩, some (.classify body)⟩] := by
  have hsplit : Piece.split (braced body) = [.tag body] := by
    have hrow := Piece.split_row (List.forall_mem_singleton.2 h)
    rwa [List.flatMap_singleton] at hrow
  rw [ofText, hsplit, place, Nat.zero_add]
  rfl

/-- A tag is read back from its spelling, and it is the only token there. -/
theorem ofText_spelling {tag : Tag} (h : tag.Spelled) :
    ofText (braced tag.spelling) =
      [⟨braced tag.spelling, ⟨0, Text.bytes (braced tag.spelling)⟩, some tag⟩] := by
  rw [ofText_braced (Tag.enclosed_spelling h), Tag.classify_spelling h]

/-- A pattern reference with blanks, single braces and the other mark in its quotations, and with
    its keyword as the path. -/
theorem ofText_spelling_pattern :
    let tag : Tag := .pattern "\"가 \x7d" "\x7b " (some ⟨["pattern"], by decide⟩)
    let source : Text := "\x7b\x7bpattern '\"가 \x7d' '\x7b ' pattern\x7d\x7d"
    tag.Spelled ∧ braced tag.spelling = source ∧ ofText source = [⟨source, ⟨0, 33⟩, some tag⟩] := by
  intro tag source
  have hspelled : tag.Spelled :=
    ⟨⟨by decide, by decide, by decide⟩, ⟨by decide, by decide, by decide⟩⟩
  have hsource : braced tag.spelling = source := by decide
  have hread := ofText_spelling hspelled
  rw [hsource] at hread
  exact ⟨hspelled, hsource, hread⟩

end Token

end PagePress
