/-
  PagePress.Proofs.Template.Fragment

  What the text of a rendering is made of.

  `Renderer.fragments` keeps apart what an evaluation puts in a row: text of
  the template, texts of values, forms of particles, markers, and the tags of
  references that were left in place.  Put together, the fragments are the
  output, and where nothing is reported no reference is among them
  (`Renderer.accounts_evaluate`).
-/

import Mathlib.Data.Option.Basic
import PagePress.Proofs.Template.Classify
import PagePress.Proofs.Template.Evaluation
import PagePress.Proofs.Template.Recovery
import PagePress.Proofs.Template.Tiling

namespace PagePress

/-! ## Fragments -/

/-- A part of the output of a template. -/
inductive Fragment where
  /-- Text that stands in the output as it was written: plain text, or a tag of no known form. -/
  | literal (raw : Text)
  /-- The text of a value. -/
  | value (t : Text)
  /-- The form of a particle. -/
  | form (t : Text)
  /-- A marker for a part that is filled in later. -/
  | marker (raw : Text)
  /-- The tag of a reference that nothing was found for. -/
  | reference (raw : Text)

namespace Fragment

def text : Fragment → Text
  | literal raw => raw
  | value t => t
  | form t => t
  | marker raw => raw
  | reference raw => raw

/-- A fragment that needs no report: literal text is a token that opens, divides and ends no block,
    a marker is a tag that cleanup keeps, and no reference is left. -/
inductive Settled : Fragment → Prop where
  | literal {source : Text} {k : Token} (hk : k ∈ Token.ofText source)
      (h : k.leaf? = some .literal) : Settled (.literal k.raw)
  | value (t : Text) : Settled (.value t)
  | form (t : Text) : Settled (.form t)
  | marker {body : Text} (h : Enclosed body) (hm : Cleanup.isMarker body = true) :
      Settled (.marker (braced body))

end Fragment

/-- The fragments of the text of a pattern in a context. -/
abbrev Breakdown := Text → Context → List Fragment

namespace Renderer

section

variable (r : Renderer) (breakdown? : Option Breakdown)

def leafFragments (c : Context) (raw : Text) : Leaf → List Fragment
  | .literal => [.literal raw]
  | .variable path =>
    match c.textOf? path with
    | some t => [.value t]
    | none => [.reference raw]
  | .particle word spec =>
    match c.textOf? word with
    | none => [.reference raw]
    | some t =>
      match Particle.parse? spec with
      | some p => [.form (p.formFor t)]
      | none => []
  | .pattern category sect word =>
    match r.library.select? r.seed category sect (word.bind c.textOf?) with
    | none => [.reference raw]
    | some source =>
      match breakdown? with
      | none => []
      | some parts => parts source c
  | .partialMarker _ => [.marker raw]
  | .comment _ => []

mutual

/-- The fragments of a node, given those of patterns, if these still may be expanded. -/
def nodeFragments (c : Context) : Node → List Fragment
  | .leaf _ _ raw content => r.leafFragments breakdown? c raw content
  | .when _ _ condition body => if c.holds condition then nodesFragments c body else []
  | .choice _ _ condition yes no =>
    if c.holds condition then nodesFragments c yes else nodesFragments c no
  | .each _ _ path body =>
    (c.rounds 0 (c.itemsOf path)).flatMap fun round => nodesFragments round body

def nodesFragments (c : Context) : List Node → List Fragment
  | [] => []
  | n :: ns => nodeFragments c n ++ nodesFragments c ns

end

end

/-- The fragments of patterns when they may be nested a number of levels deeper. -/
def breakdown (r : Renderer) : Nat → Option Breakdown
  | 0 => none
  | levels + 1 =>
    some fun source c => r.nodesFragments (r.breakdown levels) c (Template.compile source).nodes

/-- The fragments of the output of a template. -/
def fragments (r : Renderer) (c : Context) (t : Template) : List Fragment :=
  r.nodesFragments (r.breakdown r.depthLimit) c t.nodes

end Renderer

theorem Tag.eq_partialMarker_of_leaf? {tag : Tag} {name : Text}
    (h : tag.leaf? = some (.partialMarker name)) : tag = .partialMarker name := by
  cases tag <;> cases h
  rfl

/-- A marker that was read is settled. -/
theorem Fragment.settled_marker {source name : Text} {t : Token} (hmem : t ∈ Token.ofText source)
    (h : t.leaf? = some (.partialMarker name)) : Settled (.marker t.raw) := by
  rw [Token.leaf?] at h
  split at h
  · exact Leaf.noConfusion (Option.some.inj h)
  · rename_i tag htag
    obtain ⟨body, hbody, hraw, rfl⟩ := Token.exists_of_tag? hmem htag
    have hm := Tag.isMarker_of_classify (Tag.eq_partialMarker_of_leaf? h)
    obtain ⟨hopen, hclose⟩ := Piece.unpaired_of_mem_scan hbody
    rw [hraw]
    refine .marker ⟨Text.unpaired_cons.2 ⟨fun _ hhead => ?_, hopen⟩, hclose⟩ hm
    -- a marker does not start with a brace
    cases body with
    | nil => exact absurd hhead.symm (Option.some_ne_none _)
    | cons c rest =>
        obtain rfl := Option.some.inj hhead
        exact Bool.noConfusion hm

/-! ## What the fragments account for -/

/-- The fragments are those of an output: put together they are its text, and if the tokens are as
    they were read and nothing is reported, each of them is settled. -/
structure Accounts (read : Prop) (o : Output) (fs : List Fragment) : Prop where
  text : fs.flatMap Fragment.text = o.text
  settled : read → o.warnings = [] → ∀ f ∈ fs, f.Settled

namespace Accounts

variable {read : Prop} {o o' : Output} {fs fs' : List Fragment}

theorem empty : Accounts read .empty [] := ⟨rfl, fun _ _ _ hf => absurd hf List.not_mem_nil⟩

theorem append (h : Accounts read o fs) (h' : Accounts read o' fs') :
    Accounts read (o ++ o') (fs ++ fs') where
  text := by rw [List.flatMap_append, h.text, h'.text, Output.text_append]
  settled := by
    intro hread hw f hf
    rw [Output.warnings_append, List.append_eq_nil_iff] at hw
    rcases List.mem_append.1 hf with hf | hf
    · exact h.settled hread hw.1 f hf
    · exact h'.settled hread hw.2 f hf

theorem concat {α : Type} {os : α → Output} {fss : α → List Fragment}
    (h : ∀ x, Accounts read (os x) (fss x)) (xs : List α) :
    Accounts read (.concat (xs.map os)) (xs.flatMap fss) := by
  induction xs with
  | nil => exact empty
  | cons x xs ih => exact (h x).append ih

/-- One fragment that is settled if the tokens are as they were read. -/
theorem ofText {f : Fragment} (h : read → f.Settled) : Accounts read (.ofText f.text) [f] where
  text := List.append_nil f.text
  settled hread _ g hg := by
    rw [List.mem_singleton.1 hg]
    exact h hread

/-- What is reported need not be settled. -/
theorem warned {t : Text} (w : Warning) (h : fs.flatMap Fragment.text = t) :
    Accounts read (.warned t w) fs :=
  ⟨h, fun _ hw => absurd hw (List.cons_ne_nil w [])⟩

theorem mono {read' : Prop} (h : Accounts read' o fs) (himp : read → read') :
    Accounts read o fs :=
  ⟨h.text, fun hread => h.settled (himp hread)⟩

end Accounts

/-- The fragments of patterns are those of their expansions. -/
def AccountsForPatterns : Option Expansion → Option Breakdown → Prop :=
  Option.Rel fun expand parts => ∀ source c, Accounts True (expand source c) (parts source c)

namespace Renderer

section

variable {r : Renderer} {expand? : Option Expansion} {breakdown? : Option Breakdown} {read : Prop}

/-- The leaf that a token stands for. -/
theorem accounts_leaf (hexpand : AccountsForPatterns expand? breakdown?) {t : Token}
    {content : Leaf} (ht : t.leaf? = some content)
    (hread : read → ∃ source, t ∈ Token.ofText source) (c : Context) :
    Accounts read (r.evalLeaf expand? .verbatim c t.raw content)
      (r.leafFragments breakdown? c t.raw content) := by
  cases content with
  | literal =>
      refine Accounts.ofText (f := .literal t.raw) fun h => ?_
      obtain ⟨source, hmem⟩ := hread h
      exact .literal hmem ht
  | «variable» path =>
      rw [evalLeaf, leafFragments]
      cases c.textOf? path with
      | none => exact .warned _ (List.append_nil _)
      | some u => exact Accounts.ofText (f := .value u) fun _ => .value u
  | particle word spec =>
      rw [evalLeaf, evalParticle, leafFragments]
      cases c.textOf? word with
      | none => exact .warned _ (List.append_nil _)
      | some u =>
          simp only
          cases Particle.parse? spec with
          | none => exact .warned _ rfl
          | some p => exact Accounts.ofText (f := .form (p.formFor u)) fun _ => .form _
  | pattern category sect word =>
      rw [evalLeaf, evalPattern, leafFragments]
      cases r.library.select? r.seed category sect (word.bind c.textOf?) with
      | none => exact .warned _ (List.append_nil _)
      | some source =>
          cases hexpand with
          | none => exact .warned _ rfl
          | some h => exact (h source c).mono fun _ => trivial
  | partialMarker name =>
      refine Accounts.ofText (f := .marker t.raw) fun h => ?_
      obtain ⟨source, hmem⟩ := hread h
      exact Fragment.settled_marker hmem ht
  | comment remark => exact .empty

/-- The fragments of a derivation, block by block. -/
theorem accounts_of_derives (hexpand : AccountsForPatterns expand? breakdown?)
    {ts : List Token} {ns : List Node} (h : Derives ts ns)
    (hread : ∀ t ∈ ts, read → ∃ source, t ∈ Token.ofText source) (c : Context) :
    Accounts read (r.evalNodes expand? .verbatim c ns) (r.nodesFragments breakdown? c ns) := by
  induction h generalizing c with
  | nil => exact .empty
  | leaf number ht _ ih =>
      obtain ⟨hleaf, hrest⟩ := List.forall_mem_cons.1 hread
      rw [evalNodes, evalNode, nodesFragments, nodeFragments]
      exact (accounts_leaf hexpand ht hleaf c).append (ih hrest c)
  | when number ho hbody he _ ihbody ih =>
      have hin := ihbody (fun t ht => hread t (by simp [ht]))
      rw [evalNodes, evalNode, nodesFragments, nodeFragments]
      refine Accounts.append ?_ (ih (fun t ht => hread t (by simp [ht])) c)
      split
      · exact hin c
      · exact .empty
  | choice number ho hyes hd hno he _ ihyes ihno ih =>
      have hin := ihyes (fun t ht => hread t (by simp [ht]))
      have hin' := ihno (fun t ht => hread t (by simp [ht]))
      rw [evalNodes, evalNode, nodesFragments, nodeFragments]
      refine Accounts.append ?_ (ih (fun t ht => hread t (by simp [ht])) c)
      split
      · exact hin c
      · exact hin' c
  | each number ho hbody he _ ihbody ih =>
      have hin := ihbody (fun t ht => hread t (by simp [ht]))
      rw [evalNodes, evalNode, nodesFragments, nodeFragments]
      exact (Accounts.concat hin _).append (ih (fun t ht => hread t (by simp [ht])) c)

theorem accounts_template (hexpand : AccountsForPatterns expand? breakdown?) (source : Text)
    (c : Context) :
    Accounts True (r.evalTemplate expand? .verbatim c (.compile source))
      (r.nodesFragments breakdown? c (Template.compile source).nodes) := by
  obtain ⟨us, -, hderives, hclean⟩ := Template.draft_settles (Token.ofText source)
  -- while nothing is reported the tokens are those of the template
  have hread : ∀ t ∈ us, (Template.compile source).warnings = [] →
      ∃ source, t ∈ Token.ofText source := fun t ht hw => ⟨source, hclean hw ▸ ht⟩
  have hnodes := accounts_of_derives (r := r) hexpand hderives hread c
  refine ⟨hnodes.text, fun _ hw => ?_⟩
  obtain ⟨hown, hnone⟩ := List.append_eq_nil_iff.1 hw
  exact hnodes.settled hown hnone

end

variable (r : Renderer)

theorem accounts_expansion (levels : Nat) :
    AccountsForPatterns (r.expansion levels) (r.breakdown levels) := by
  induction levels with
  | zero => exact .none
  | succ levels ih => exact .some fun source c => accounts_template ih source c

/-- The fragments of a template put together are its output, and if nothing is reported each of
    them is settled. -/
theorem accounts_evaluate (source : Text) (c : Context) :
    Accounts True (r.evaluate .verbatim c (.compile source))
      (r.fragments c (.compile source)) :=
  accounts_template (r.accounts_expansion r.depthLimit) source c

end Renderer

end PagePress
