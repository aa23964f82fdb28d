/-
  PagePress.Proofs.Template.Mention

  The variables that a page depends on.

  A tag with a path mentions the variable that the path starts from.
  Contexts that agree on the variables mentioned in a template and in the
  patterns of a library give the same output
  (`Renderer.evaluate_eq_of_agreeOn`), so the same page
  (`Renderer.render_eq_of_mentioned`).  The scope of a round of a loop is
  entered in both contexts alike and keeps the agreement, and the words that
  patterns are chosen by are the same, so the same patterns are expanded.
-/

import PagePress.Proofs.Pattern.Selection
import PagePress.Proofs.Template.Recovery
import PagePress.Template.Render

namespace PagePress

/-! ## Mentioned variables -/

/-- The variable that a path starts from. -/
def VarPath.root (p : VarPath) : Text := p.segments.headD []

theorem VarPath.segments_eq (p : VarPath) : p.segments = p.root :: p.segments.tail := by
  obtain ⟨segments, hpath⟩ := p
  cases segments with
  | nil => exact absurd hpath Bool.false_ne_true
  | cons name keys => rfl

/-- The path in a tag. -/
def Tag.path? : Tag → Option VarPath
  | .variable path => some path
  | .particle word _ => some word
  | .pattern _ _ word => word
  | .openIf condition => some condition
  | .openEach path => some path
  | .otherwise | .closeIf | .closeEach | .partialMarker _ | .comment _ | .unknown => none

/-- The path in a leaf. -/
def Leaf.path? : Leaf → Option VarPath
  | .variable path => some path
  | .particle word _ => some word
  | .pattern _ _ word => word
  | .literal | .partialMarker _ | .comment _ => none

namespace Token

/-- The path in a token; plain text has none. -/
def path? (t : Token) : Option VarPath := t.tag?.bind Tag.path?

theorem path?_of_tag? {t : Token} {tag : Tag} (h : t.tag? = some tag) : t.path? = tag.path? := by
  rw [path?, h, Option.bind_some]

theorem path?_of_leaf? {t : Token} {content : Leaf} (h : t.leaf? = some content) :
    t.path? = content.path? := by
  cases ht : t.tag? with
  | none =>
      rw [leaf?, ht] at h
      obtain rfl := Option.some.inj h
      rw [path?, ht]
      rfl
  | some tag =>
      rw [leaf?, ht] at h
      rw [path?_of_tag? ht]
      cases tag <;> cases h <;> rfl

/-- Every path in some tokens starts from a variable of some kind. -/
def MentionOnly (names : Text → Prop) (ts : List Token) : Prop :=
  ∀ t ∈ ts, ∀ path, t.path? = some path → names path.root

theorem MentionOnly.settles {names : Text → Prop} {ts us : List Token} (h : Settles ts us)
    (hts : MentionOnly names ts) : MentionOnly names us := by
  induction h with
  | nil => exact hts
  | keep t _ ih =>
      obtain ⟨ht, hrest⟩ := List.forall_mem_cons.1 hts
      exact List.forall_mem_cons.2 ⟨ht, ih hrest⟩
  | demote _ _ ih =>
      -- a tag that has become text mentions nothing
      obtain ⟨-, hrest⟩ := List.forall_mem_cons.1 hts
      exact List.forall_mem_cons.2 ⟨fun _ hp => absurd hp.symm (Option.some_ne_none _), ih hrest⟩

end Token

/-- The variables that a template mentions. -/
def mentioned (source : Text) : List Text :=
  ((Token.ofText source).filterMap Token.path?).map VarPath.root

theorem root_mem_mentioned {source : Text} {t : Token} (ht : t ∈ Token.ofText source)
    {path : VarPath} (hp : t.path? = some path) : path.root ∈ mentioned source :=
  List.mem_map_of_mem (List.mem_filterMap.2 ⟨t, ht, hp⟩)

namespace PatternLibrary

/-- The texts of all patterns. -/
def texts (l : PatternLibrary) : List Text :=
  l.categories.flatMap fun category => category.2.flatMap (·.2)

/-- What is chosen is a pattern of the library. -/
theorem select?_mem_texts {l : PatternLibrary} {seed : UInt32} {category sect t : Text}
    {word : Option Text} (h : l.select? seed category sect word = some t) : t ∈ l.texts := by
  obtain ⟨pool, hpool, ht⟩ := mem_pool_of_select? h
  obtain ⟨sections, hcategory, hsection⟩ := Option.bind_eq_some_iff.1 hpool
  have hsections := Dictionary.mem_of_lookup hcategory
  have hpatterns := Dictionary.mem_of_lookup hsection
  exact List.mem_flatMap.2 ⟨_, hsections, List.mem_flatMap.2 ⟨_, hpatterns, ht⟩⟩

end PatternLibrary

/-! ## Agreement -/

namespace Context

/-- Two contexts give the same meaning, or none, to every variable of some kind. -/
def AgreeOn (names : Text → Prop) (c c' : Context) : Prop :=
  ∀ name, names name → c.get? name = c'.get? name

theorem get?_enter (c : Context) (scope : Scope) (name : Text) :
    (c.enter scope).get? name = (scope.lookup name).or (c.get? name) := by
  show List.findSome? _ (scope :: (c.inner :: c.outer)) = _
  rw [List.findSome?_cons]
  cases scope.lookup name <;> rfl

theorem resolve_eq (c : Context) (path : VarPath) :
    c.resolve path = (c.get? path.root).bind (Value.at? path.segments.tail) := by
  rw [resolve, path.segments_eq]
  rfl

namespace AgreeOn

variable {names : Text → Prop} {c c' : Context}

/-- Bindings that are added to both contexts hide the same. -/
theorem enter (h : AgreeOn names c c') (scope : Scope) :
    AgreeOn names (c.enter scope) (c'.enter scope) := by
  intro name hname
  rw [get?_enter, get?_enter, h name hname]

theorem rounds (h : AgreeOn names c c') (index : Nat) (items : List Value) :
    List.Forall₂ (AgreeOn names) (c.rounds index items) (c'.rounds index items) := by
  induction items generalizing index with
  | nil => exact .nil
  | cons item items ih => exact .cons (h.enter _) (ih (index + 1))

variable {path : VarPath}

theorem resolve (h : AgreeOn names c c') (hp : names path.root) :
    c.resolve path = c'.resolve path := by
  rw [resolve_eq, resolve_eq, h path.root hp]

theorem textOf? (h : AgreeOn names c c') (hp : names path.root) :
    c.textOf? path = c'.textOf? path := by
  rw [Context.textOf?, Context.textOf?, h.resolve hp]

theorem holds (h : AgreeOn names c c') (hp : names path.root) :
    c.holds path = c'.holds path := by
  rw [Context.holds, Context.holds, h.resolve hp]

theorem itemsOf (h : AgreeOn names c c') (hp : names path.root) :
    c.itemsOf path = c'.itemsOf path := by
  rw [Context.itemsOf, Context.itemsOf, h.resolve hp]

end AgreeOn

end Context

open Context (AgreeOn)

theorem Output.concat_congr {f g : Context → Output} {R : Context → Context → Prop}
    (hfg : ∀ c c', R c c' → f c = g c') {cs cs' : List Context} (h : List.Forall₂ R cs cs') :
    Output.concat (cs.map f) = Output.concat (cs'.map g) := by
  induction h with
  | nil => rfl
  | cons hc _ ih => exact congrArg₂ append (hfg _ _ hc) ih

/-! ## Evaluation -/

/-- Patterns of a library are expanded alike in contexts that agree. -/
def ExpandsAlike (names : Text → Prop) (l : PatternLibrary) (expand? : Option Expansion) : Prop :=
  ∀ expand, expand? = some expand → ∀ source ∈ l.texts, ∀ c c', AgreeOn names c c' →
    expand source c = expand source c'

namespace Renderer

variable {r : Renderer} {names : Text → Prop} {expand? : Option Expansion} {escape : Escape}

/-- A leaf is evaluated alike in contexts that give its path the same text and expand patterns
    alike. -/
theorem evalLeaf_congr {c c' : Context} {content : Leaf}
    (htext : ∀ path, content.path? = some path → c.textOf? path = c'.textOf? path)
    (hexpand : ∀ expand, expand? = some expand → ∀ source ∈ r.library.texts,
      expand source c = expand source c') (raw : Text) :
    r.evalLeaf expand? escape c raw content = r.evalLeaf expand? escape c' raw content := by
  cases content with
  | literal => rfl
  | «variable» path => rw [evalLeaf, evalLeaf, htext path rfl]
  | particle word spec => rw [evalLeaf, evalLeaf, evalParticle, evalParticle, htext word rfl]
  | pattern category sect word =>
      have hword : word.bind c.textOf? = word.bind c'.textOf? := by
        cases word with
        | none => rfl
        | some path => exact htext path rfl
      rw [evalLeaf, evalLeaf, evalPattern, evalPattern, hword]
      cases hselect : r.library.select? r.seed category sect (word.bind c'.textOf?) with
      | none => rfl
      | some source =>
          cases expand? with
          | none => rfl
          | some expand =>
              simp only [hexpand expand rfl source (PatternLibrary.select?_mem_texts hselect)]
  | partialMarker name => rfl
  | comment remark => rfl

theorem evalLeaf_eq_of_agreeOn (hexpand : ExpandsAlike names r.library expand?) {c c' : Context}
    (h : AgreeOn names c c') (raw : Text) {content : Leaf}
    (hcontent : ∀ path, content.path? = some path → names path.root) :
    r.evalLeaf expand? escape c raw content = r.evalLeaf expand? escape c' raw content :=
  evalLeaf_congr (fun path hpath => h.textOf? (hcontent path hpath))
    (fun expand hsome source hsource => hexpand expand hsome source hsource c c' h) raw

/-- The tree of some tokens is evaluated alike in contexts that agree on what the tokens
    mention. -/
theorem evalNodes_eq_of_agreeOn (hexpand : ExpandsAlike names r.library expand?)
    {ts : List Token} {ns : List Node} (hderives : Derives ts ns)
    (hts : Token.MentionOnly names ts) {c c' : Context} (h : AgreeOn names c c') :
    r.evalNodes expand? escape c ns = r.evalNodes expand? escape c' ns := by
  induction hderives generalizing c c' with
  | nil => rfl
  | @leaf number t content ts ns ht _ ih =>
      obtain ⟨hleaf, hrest⟩ := List.forall_mem_cons.1 hts
      rw [Token.path?_of_leaf? ht] at hleaf
      rw [evalNodes, evalNodes, evalNode, evalNode, ih hrest h,
        evalLeaf_eq_of_agreeOn hexpand h t.raw hleaf]
  | @when number o e condition us ts body ns ho _ _ _ ihbody ih =>
      have hcondition := h.holds (hts o (by simp) condition (Token.path?_of_tag? ho))
      have hbody := ihbody (fun t ht => hts t (by simp [ht])) h
      have hrest := ih (fun t ht => hts t (by simp [ht])) h
      rw [evalNodes, evalNodes, evalNode, evalNode, hcondition, hbody, hrest]
  | @choice number o d e condition us vs ts yes no ns ho _ _ _ _ _ ihyes ihno ih =>
      have hcondition := h.holds (hts o (by simp) condition (Token.path?_of_tag? ho))
      have hyes := ihyes (fun t ht => hts t (by simp [ht])) h
      have hno := ihno (fun t ht => hts t (by simp [ht])) h
      have hrest := ih (fun t ht => hts t (by simp [ht])) h
      rw [evalNodes, evalNodes, evalNode, evalNode, hcondition, hyes, hno, hrest]
  | @each number o e path us ts body ns ho _ _ _ ihbody ih =>
      have hitems := h.itemsOf (hts o (by simp) path (Token.path?_of_tag? ho))
      have hbody : ∀ round round', AgreeOn names round round' →
          r.evalNodes expand? escape round body = r.evalNodes expand? escape round' body :=
        fun _ _ hround => ihbody (fun t ht => hts t (by simp [ht])) hround
      have hrest := ih (fun t ht => hts t (by simp [ht])) h
      rw [evalNodes, evalNodes, evalNode, evalNode, hitems, hrest,
        Output.concat_congr hbody (h.rounds 0 (c'.itemsOf path))]

theorem evalTemplate_eq_of_agreeOn (hexpand : ExpandsAlike names r.library expand?)
    {source : Text} (hsource : Token.MentionOnly names (Token.ofText source)) {c c' : Context}
    (h : AgreeOn names c c') :
    r.evalTemplate expand? escape c (.compile source) =
      r.evalTemplate expand? escape c' (.compile source) := by
  obtain ⟨us, hsettles, hderives, -⟩ := Template.draft_settles (Token.ofText source)
  have hnodes : r.evalNodes expand? escape c _ = r.evalNodes expand? escape c' _ :=
    evalNodes_eq_of_agreeOn hexpand hderives (hsource.settles hsettles) h
  exact congrArg (Output.append _) hnodes

/-- Patterns of any depth are expanded alike. -/
theorem expandsAlike (r : Renderer)
    (htexts : ∀ t ∈ r.library.texts, Token.MentionOnly names (Token.ofText t)) (levels : Nat) :
    ExpandsAlike names r.library (r.expansion levels) := by
  induction levels with
  | zero => exact fun _ hnone => absurd hnone.symm (Option.some_ne_none _)
  | succ levels ih =>
      rintro _ ⟨⟩ source hsource c c' h
      exact evalTemplate_eq_of_agreeOn ih (htexts source hsource) h

/-- Contexts that agree on every variable mentioned in a template and in the patterns of the
    library give the same output. -/
theorem evaluate_eq_of_agreeOn (r : Renderer) (escape : Escape) {source : Text} {c c' : Context}
    (h : ∀ t ∈ source :: r.library.texts, ∀ name ∈ mentioned t, c.get? name = c'.get? name) :
    r.evaluate escape c (.compile source) = r.evaluate escape c' (.compile source) := by
  let names : Text → Prop := fun name => ∃ t ∈ source :: r.library.texts, name ∈ mentioned t
  have hmention : ∀ t ∈ source :: r.library.texts, Token.MentionOnly names (Token.ofText t) :=
    fun t ht _ hk _ hp => ⟨t, ht, root_mem_mentioned hk hp⟩
  obtain ⟨hsource, htexts⟩ := List.forall_mem_cons.1 hmention
  have hagree : AgreeOn names c c' := by
    rintro name ⟨t, ht, hname⟩
    exact h t ht name hname
  exact evalTemplate_eq_of_agreeOn (r.expandsAlike htexts r.depthLimit) hsource hagree

/-- A page depends on no other variables than those mentioned in its template and in the patterns
    of the library: if two contexts agree on these, the page is the same, with the same reports,
    and so is the document. -/
theorem render_eq_of_mentioned (r : Renderer) (source : Text) {c c' : Context}
    (h : ∀ t ∈ source :: r.library.texts, ∀ name ∈ mentioned t, c.get? name = c'.get? name) :
    r.render c source = r.render c' source ∧
      r.structuredText c source = r.structuredText c' source ∧
        r.renderStructured? c source = r.renderStructured? c' source := by
  have hpage := r.evaluate_eq_of_agreeOn .verbatim h
  have htext : r.structuredText c source = r.structuredText c' source := by
    rw [structuredText, structuredText, r.evaluate_eq_of_agreeOn .json h]
  refine ⟨?_, htext, ?_⟩
  · rw [render, render, renderTemplate, renderTemplate, hpage]
  · rw [renderStructured?, renderStructured?, htext]

/-- What no tag mentions may differ, and it may stand in another scope. -/
theorem render_eq_of_mentioned_loop :
    let r : Renderer := ⟨⟨[], [(['a'], [(['b'], [braced ['x']])])]⟩, 0, defaultDepthLimit⟩
    let source := braced "#each x".toList ++ (braced "this".toList ++ (braced "/each".toList ++
      braced "pattern a b x".toList))
    let c : Context := ⟨[(['x'], .list [.bool true]), (['y'], .text ['z'])], []⟩
    let c' : Context := ⟨[(['y'], .null)], [[(['x'], .list [.bool true])]]⟩
    (∀ t ∈ source :: r.library.texts, ∀ name ∈ mentioned t, c.get? name = c'.get? name) ∧
      r.render c source = r.render c' source ∧
        r.structuredText c source = r.structuredText c' source ∧
          r.renderStructured? c source = r.renderStructured? c' source := by
  have hsource : mentioned (braced "#each x".toList ++ (braced "this".toList ++
      (braced "/each".toList ++ braced "pattern a b x".toList))) =
        [['x'], "this".toList, ['x']] := by decide +kernel
  have hpattern : mentioned (braced ['x']) = [['x']] := by decide +kernel
  intro r source c c'
  have hagree : ∀ t ∈ source :: r.library.texts, ∀ name ∈ mentioned t,
      c.get? name = c'.get? name := by
    intro t ht name hname
    have hpages : r.library.texts = [braced ['x']] := rfl
    rw [hpages] at ht
    rcases List.mem_pair.1 ht with rfl | rfl
    · rw [hsource] at hname
      rcases List.mem_cons.1 hname with rfl | hname
      · rfl
      · rcases List.mem_pair.1 hname with rfl | rfl <;> rfl
    · rw [hpattern] at hname
      obtain rfl := List.mem_singleton.1 hname
      rfl
  exact ⟨hagree, r.render_eq_of_mentioned source hagree⟩

end Renderer

end PagePress
