/-
  PagePress.Proofs.Page.Address

  Internal links and the addresses of other sites.

  An address has a scheme, a host and a path.  No link starts inside its
  scheme or its host, and none at the slash behind a word character, so most
  addresses hold no internal link.  But a segment may end in a percent sign or
  a hyphen, which a link may follow: with two more segments behind it the rest
  of the path is counted as a link (`Page.Address.links_eq_zero_iff`).
-/

import Mathlib.Data.List.Basic
import Mathlib.Data.List.TakeWhile
import PagePress.Page.Link

namespace PagePress.Page

/-! ## Characters -/

theorem isLinkStart_of_isWord {c : Char} (h : Text.isWord c = true) : isLinkStart c = false := by
  rw [isLinkStart, h]
  rfl

/-- A character of a kind that the slash is not of. -/
theorem ne_slash {p : Char → Bool} (hp : p '/' = false) {c : Char} (h : p c = true) : c ≠ '/' := by
  rintro rfl
  rw [hp] at h
  exact Bool.noConfusion h

/-- Of the characters of a segment, two may stand before a link. -/
theorem isLinkStart_iff {c : Char} (h : isLinkChar c = true) :
    isLinkStart c = true ↔ c = '%' ∨ c = '-' := by
  rw [isLinkChar, Bool.or_eq_true, Bool.or_eq_true, beq_iff_eq, beq_iff_eq] at h
  constructor
  · intro hstart
    rcases h with (hword | hpercent) | hhyphen
    · rw [isLinkStart_of_isWord hword] at hstart
      exact Bool.noConfusion hstart
    · exact .inl hpercent
    · exact .inr hhyphen
  · rintro (rfl | rfl) <;> decide

/-! ## Where links start -/

theorem skipSegment?_eq_none {c : Char} (h : c ≠ '/') (t : Text) :
    skipSegment? (c :: t) = none := by
  unfold skipSegment?
  split
  · next heq => exact absurd (List.cons.inj heq).1 h
  · rfl

theorem skipSegments_step {t rest : Text} (h : skipSegment? t = some rest) :
    skipSegments t = skipSegments rest := by
  rw [skipSegments]
  split
  · next hrest =>
      rw [h] at hrest
      rw [Option.some.inj hrest]
  · next hnone =>
      rw [h] at hnone
      exact absurd hnone (Option.some_ne_none _)

theorem skipSegments_stop {t : Text} (h : skipSegment? t = none) : skipSegments t = t := by
  rw [skipSegments]
  split
  · next hrest =>
      rw [h] at hrest
      exact absurd hrest.symm (Option.some_ne_none _)
  · rfl

theorem skipPath?_eq_none {c : Char} (h : c ≠ '/') (t : Text) : skipPath? (c :: t) = none := by
  rw [skipPath?, skipSegment?_eq_none h]
  rfl

/-- A character that is not the one before a link is passed over. -/
theorem linksWithin_cons {c : Char} {t : Text} (h : isLinkStart c = false ∨ skipPath? t = none) :
    linksWithin (c :: t) = linksWithin t := by
  rw [linksWithin]
  split
  · next hstart hpath =>
      rcases h with h | h
      · rw [h] at hstart
        exact Bool.noConfusion hstart
      · rw [h] at hpath
        exact absurd hpath.symm (Option.some_ne_none _)
  · rfl

theorem linksWithin_link {c : Char} {t rest : Text} (hc : isLinkStart c = true)
    (h : skipPath? t = some rest) : linksWithin (c :: t) = linksWithin rest + 1 := by
  rw [linksWithin]
  split
  · next hpath =>
      rw [h] at hpath
      rw [Option.some.inj hpath]
  · next hnone => exact absurd h (hnone rest hc)

theorem linksWithin_append {s : Text} (h : ∀ c ∈ s, isLinkStart c = false) (t : Text) :
    linksWithin (s ++ t) = linksWithin t := by
  induction s with
  | nil => rfl
  | cons c s ih =>
      obtain ⟨hc, hs⟩ := List.forall_mem_cons.1 h
      rw [List.cons_append, linksWithin_cons (.inl hc), ih hs]

/-! ## Paths -/

/-- A text that is not empty and has only characters of some kind. -/
def IsRun (p : Char → Bool) (t : Text) : Prop := t ≠ [] ∧ t.all p = true

instance (p : Char → Bool) (t : Text) : Decidable (IsRun p t) :=
  inferInstanceAs (Decidable (t ≠ [] ∧ t.all p = true))

/-- Segments with a slash before each. -/
def path (segments : List Text) : Text := segments.flatMap fun s => '/' :: s

theorem path_cons (s : Text) (segments : List Text) :
    path (s :: segments) = '/' :: (s ++ path segments) := by
  rw [path, List.flatMap_cons, List.cons_append, path]

theorem skipSegment?_path {s : Text} (h : IsRun isLinkChar s) (segments : List Text) :
    skipSegment? (path (s :: segments)) = some (path segments) := by
  obtain ⟨c, cs, rfl⟩ := List.exists_cons_of_ne_nil h.1
  obtain ⟨hc, hcs⟩ := List.forall_mem_cons.1 (List.all_eq_true.1 h.2)
  -- the next segment starts with a slash
  have hstop : (path segments).dropWhile isLinkChar = path segments := by
    cases segments with
    | nil => rfl
    | cons s segments => rw [path_cons, List.dropWhile_cons_of_neg (by decide)]
  rw [path_cons, List.cons_append, skipSegment?, if_pos hc, List.dropWhile_append_of_pos hcs,
    hstop]

section Path

variable {segments : List Text} (h : ∀ s ∈ segments, IsRun isLinkChar s)

include h

theorem skipSegments_path : skipSegments (path segments) = [] := by
  induction segments with
  | nil => exact skipSegments_stop rfl
  | cons s segments ih =>
      obtain ⟨hs, hsegments⟩ := List.forall_mem_cons.1 h
      rw [skipSegments_step (skipSegment?_path hs segments), ih hsegments]

/-- A path of at least two segments is a link up to its end. -/
theorem skipPath?_path :
    skipPath? (path segments) = if 2 ≤ segments.length then some [] else none := by
  match segments, h with
  | [], _ => rfl
  | [s], h =>
      rw [skipPath?, skipSegment?_path (List.forall_mem_singleton.1 h)]
      rfl
  | s :: s' :: segments, h =>
      obtain ⟨hs, h⟩ := List.forall_mem_cons.1 h
      obtain ⟨hs', hsegments⟩ := List.forall_mem_cons.1 h
      rw [skipPath?, skipSegment?_path hs, Option.bind_some, skipSegment?_path hs',
        Option.map_some, skipSegments_path hsegments, if_pos (by simp)]

end Path

/-- Whether somewhere a segment that a link may follow has two more segments behind it. -/
def exposed : List Text → Bool
  | [] => false
  | s :: segments => (decide (2 ≤ segments.length) && s.getLast?.any isLinkStart) || exposed segments

theorem any_isLinkStart_iff {s : Text} (h : IsRun isLinkChar s) :
    s.getLast?.any isLinkStart = true ↔ s.getLast? = some '%' ∨ s.getLast? = some '-' := by
  obtain ⟨d, hd⟩ : ∃ d, s.getLast? = some d :=
    ⟨s.getLast h.1, List.getLast?_eq_some_getLast h.1⟩
  have hchar : isLinkChar d = true := List.all_eq_true.1 h.2 d (List.mem_of_getLast? hd)
  rw [hd, Option.any_some, isLinkStart_iff hchar, Option.some.injEq, Option.some.injEq]

theorem exposed_iff {segments : List Text} (h : ∀ s ∈ segments, IsRun isLinkChar s) :
    exposed segments = true ↔ ∃ front s rest, segments = front ++ s :: rest ∧ 2 ≤ rest.length ∧
      (s.getLast? = some '%' ∨ s.getLast? = some '-') := by
  induction segments with
  | nil =>
      refine iff_of_false Bool.false_ne_true ?_
      rintro ⟨front, s, rest, heq, -⟩
      exact absurd heq.symm (List.append_ne_nil_of_right_ne_nil front (List.cons_ne_nil s rest))
  | cons t segments ih =>
      obtain ⟨ht, hsegments⟩ := List.forall_mem_cons.1 h
      rw [exposed, Bool.or_eq_true, Bool.and_eq_true, decide_eq_true_iff, any_isLinkStart_iff ht,
        ih hsegments]
      constructor
      · rintro (⟨hlong, hlast⟩ | ⟨front, s, rest, rfl, hs⟩)
        · exact ⟨[], t, segments, rfl, hlong, hlast⟩
        · exact ⟨t :: front, s, rest, rfl, hs⟩
      · rintro ⟨front, s, rest, heq, hs⟩
        cases front with
        | nil =>
            obtain ⟨rfl, rfl⟩ := List.cons.inj heq
            exact .inl hs
        | cons u front => exact .inr ⟨front, s, rest, (List.cons.inj heq).2, hs⟩

/-- Only behind its last character a segment has a slash. -/
theorem linksWithin_last {s : Text} {d : Char} (hs : '/' ∉ s) (hd : d ≠ '/') (t : Text) :
    linksWithin (s ++ d :: t) = linksWithin (d :: t) := by
  induction s with
  | nil => rfl
  | cons c s ih =>
      have hrest := List.not_mem_of_not_mem_cons hs
      have hnone : skipPath? (s ++ d :: t) = none := by
        cases s with
        | nil => exact skipPath?_eq_none hd t
        | cons e s => exact skipPath?_eq_none (List.ne_of_not_mem_cons hrest).symm _
      rw [List.cons_append, linksWithin_cons (.inr hnone), ih hrest]

/-- Behind the start of a page a path has one link if it is exposed, and none otherwise. -/
theorem linksWithin_path {segments : List Text} (h : ∀ s ∈ segments, IsRun isLinkChar s) :
    linksWithin (path segments) = if exposed segments then 1 else 0 := by
  induction segments with
  | nil => rw [path, List.flatMap_nil, linksWithin]; rfl
  | cons s segments ih =>
      obtain ⟨hs, hsegments⟩ := List.forall_mem_cons.1 h
      obtain ⟨front, d, rfl⟩ := (List.eq_nil_or_concat' s).resolve_left hs.1
      have hslash : isLinkChar '/' = false := by decide
      have hchars := List.all_eq_true.1 hs.2
      have hfront : '/' ∉ front := fun hmem =>
        ne_slash hslash (hchars '/' (List.mem_append_left [d] hmem)) rfl
      have hd : d ≠ '/' :=
        ne_slash hslash (hchars d (List.mem_append_right front List.mem_cons_self))
      have hlast : (front ++ [d]).getLast?.any isLinkStart = isLinkStart d := by
        rw [List.getLast?_concat]
        rfl
      rw [path_cons, linksWithin_cons (.inl (by decide)), List.append_assoc,
        List.singleton_append, linksWithin_last hfront hd, exposed, hlast]
      by_cases hlink : 2 ≤ segments.length ∧ isLinkStart d = true
      · -- the link takes all that is left of the path
        obtain ⟨hlong, hstart⟩ := hlink
        have hpath := skipPath?_path hsegments
        rw [if_pos hlong] at hpath
        rw [linksWithin_link hstart hpath, decide_eq_true hlong, hstart, linksWithin]
        rfl
      · have hnone : isLinkStart d = false ∨ skipPath? (path segments) = none := by
          rw [skipPath?_path hsegments]
          by_cases hlong : 2 ≤ segments.length
          · exact .inl (Bool.eq_false_iff.2 fun hstart => hlink ⟨hlong, hstart⟩)
          · exact .inr (if_neg hlong)
        have hfalse : (decide (2 ≤ segments.length) && isLinkStart d) = false := by
          rwa [Bool.eq_false_iff, ne_eq, Bool.and_eq_true, decide_eq_true_iff]
        rw [linksWithin_cons hnone, ih hsegments, hfalse, Bool.false_or]

/-! ## Addresses -/

/-- An address: a scheme, a host of labels with points between them, and a path. -/
structure Address where
  scheme : Text
  labels : List Text
  segments : List Text
  scheme_word : IsRun Text.isWord scheme
  labels_ne : labels ≠ []
  labels_word : ∀ label ∈ labels, IsRun Text.isWord label
  segments_ne : segments ≠ []
  segments_link : ∀ s ∈ segments, IsRun isLinkChar s

namespace Address

/-- An address as it is written. -/
def text (a : Address) : Text :=
  a.scheme ++ "://" ++ ['.'].intercalate a.labels ++ path a.segments

theorem isLinkStart_of_mem_host {labels : List Text}
    (h : ∀ label ∈ labels, IsRun Text.isWord label) :
    ∀ c ∈ ['.'].intercalate labels, isLinkStart c = false := by
  have hlabel {label : Text} (hl : IsRun Text.isWord label) : ∀ c ∈ label, isLinkStart c = false :=
    fun c hc => isLinkStart_of_isWord (List.all_eq_true.1 hl.2 c hc)
  induction labels with
  | nil => exact List.forall_mem_nil _
  | cons label labels ih =>
      obtain ⟨hl, hlabels⟩ := List.forall_mem_cons.1 h
      cases labels with
      | nil =>
          rw [List.intercalate_singleton]
          exact hlabel hl
      | cons label' labels =>
          rw [List.intercalate_cons_cons, List.append_assoc]
          exact List.forall_mem_append.2
            ⟨hlabel hl, List.forall_mem_cons.2 ⟨by decide, ih hlabels⟩⟩

theorem links_text (a : Address) : links a.text = if exposed a.segments then 1 else 0 := by
  have hscheme := List.all_eq_true.1 a.scheme_word.2
  have hfront : ∀ c ∈ a.scheme ++ "://" ++ ['.'].intercalate a.labels, isLinkStart c = false := by
    refine List.forall_mem_append.2 ⟨List.forall_mem_append.2
      ⟨fun c hc => isLinkStart_of_isWord (hscheme c hc), ?_⟩,
      isLinkStart_of_mem_host a.labels_word⟩
    exact List.forall_mem_cons.2 ⟨by decide, List.forall_mem_cons.2 ⟨by decide,
      List.forall_mem_singleton.2 (by decide)⟩⟩
  -- a scheme starts with a word character, so no link stands at the very start
  have hnone : skipPath? a.text = none := by
    obtain ⟨c, cs, hcs⟩ := List.exists_cons_of_ne_nil a.scheme_word.1
    have hword : Text.isWord c = true := hscheme c (by rw [hcs]; exact List.mem_cons_self)
    have hc : c ≠ '/' := ne_slash (by decide) hword
    rw [text, hcs]
    exact skipPath?_eq_none hc _
  rw [links, hnone]
  show linksWithin a.text = _
  rw [text, linksWithin_append hfront, linksWithin_path a.segments_link]

/-- An address holds at most one internal link, and it holds none exactly if no segment of its
    path that ends in a percent sign or a hyphen has two more segments behind it. -/
theorem links_eq_zero_iff (a : Address) :
    links a.text ≤ 1 ∧
      (links a.text = 0 ↔ ∀ front s rest, a.segments = front ++ s :: rest → 2 ≤ rest.length →
        s.getLast? ≠ some '%' ∧ s.getLast? ≠ some '-') := by
  have hexposed := exposed_iff a.segments_link
  rw [links_text]
  cases hbool : exposed a.segments with
  | true =>
      obtain ⟨front, s, rest, heq, hlong, hlast⟩ := hexposed.1 hbool
      refine ⟨Nat.le_refl 1, iff_of_false Nat.one_ne_zero fun h => ?_⟩
      obtain ⟨hpercent, hhyphen⟩ := h front s rest heq hlong
      exact hlast.elim hpercent hhyphen
  | false =>
      refine ⟨Nat.zero_le 1, iff_of_true rfl fun front s rest heq hlong => ?_⟩
      have hnot (hlast : s.getLast? = some '%' ∨ s.getLast? = some '-') : False := by
        rw [hexposed.2 ⟨front, s, rest, heq, hlong, hlast⟩] at hbool
        exact Bool.noConfusion hbool
      exact ⟨fun hpercent => hnot (.inl hpercent), fun hhyphen => hnot (.inr hhyphen)⟩

/-- A hyphen at the end of a segment lets the rest of the path be counted. -/
theorem exists_link : ¬ ∀ a : Address, links a.text = 0 := by
  intro h
  let a : Address :=
    { scheme := "https", labels := ["host"], segments := ["a-", "b", "c"]
      scheme_word := by decide
      labels_ne := by decide
      labels_word := by decide
      segments_ne := by decide
      segments_link := by decide }
  have hone : links a.text = 1 := by
    rw [links_text]
    decide
  rw [h a] at hone
  exact Nat.zero_ne_one hone

end Address

end PagePress.Page
