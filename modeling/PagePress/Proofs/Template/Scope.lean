/-
  PagePress.Proofs.Template.Scope

  What names mean inside of loops.

  A round of a loop binds four names of its own and the fields of its item
  (`Round.Binds`).  Inside of any number of loops a name means what the
  innermost round that binds it says, or what it means outside
  (`Context.resolve_inside`, `Context.resolve_unbound`).  A loop puts the
  outputs of its rounds in a row (`Renderer.evalNode_each`), and a node inside
  of loops is evaluated in the context inside of the rounds
  (`Renderer.partOf_of_reaches`).
-/

import PagePress.Proofs.Double.Reading
import PagePress.Proofs.Template.Evaluation
import PagePress.Proofs.Template.Reorder

namespace PagePress

/-! ## Rounds -/

/-- A round of a loop over a list. -/
structure Round where
  items : List Value
  index : Fin items.length

namespace Round

def item (round : Round) : Value := round.items.get round.index

/-- The rounds of a loop over a list, in order. -/
def all (items : List Value) : List Round := List.ofFn fun index => ⟨items, index⟩

/-- The scope that is opened for a round. -/
def scope (round : Round) : Scope :=
  Context.loopScope round.item round.index (round.index.val + 1 == round.items.length)

/-- The names that mean something in every round. -/
def ownNames : List Text := ["@last".toList, "@first".toList, "@index".toList, "this".toList]

/-- A round binds these names and the fields of its item, if that is a map. -/
def Binds (round : Round) (name : Text) : Prop :=
  name ∈ ownNames ∨ ∃ fields, round.item = .map fields ∧ name ∈ fields.map Prod.fst

/-- What a round says about a name. -/
def meaning? (round : Round) (name : Text) : Option Value :=
  if name = "@last".toList then
    some (.bool (decide (round.index.val + 1 = round.items.length)))
  else if name = "@first".toList then some (.bool (decide (round.index.val = 0)))
  else if name = "@index".toList then some (.number (Float.ofNat round.index))
  else if name = "this".toList then some round.item
  else round.item.field? name

/-- The paths to the place of the item in the list. -/
def indexPath : VarPath := ⟨["@index".toList], rfl⟩

def firstPath : VarPath := ⟨["@first".toList], rfl⟩

def lastPath : VarPath := ⟨["@last".toList], rfl⟩

theorem lookup_scope (round : Round) (name : Text) :
    round.scope.lookup name = round.meaning? name := by
  rw [scope, Context.lookup_loopScope, meaning?]
  rfl

theorem binds_iff {round : Round} {name : Text} :
    round.Binds name ↔ (round.meaning? name).isSome = true := by
  by_cases hown : name ∈ ownNames
  · refine iff_of_true (.inl hown) ?_
    unfold meaning?
    simp only [ownNames, List.mem_cons, List.not_mem_nil, or_false] at hown
    rcases hown with rfl | rfl | rfl | rfl <;> rfl
  · have hfield : round.meaning? name = round.item.field? name := by
      unfold meaning?
      simp only [ownNames, List.mem_cons, List.not_mem_nil, or_false, not_or] at hown
      obtain ⟨hlast, hfirst, hindex, hthis⟩ := hown
      rw [if_neg hlast, if_neg hfirst, if_neg hindex, if_neg hthis]
    rw [hfield, Binds, or_iff_right hown]
    cases round.item with
    | map fields =>
        rw [Value.field?, List.lookup_isSome_iff]
        constructor
        · rintro ⟨_, ⟨⟩, hname⟩
          obtain ⟨entry, hentry, rfl⟩ := List.mem_map.1 hname
          exact ⟨entry, hentry, beq_self_eq_true _⟩
        · rintro ⟨entry, hentry, hname⟩
          exact ⟨fields, rfl, List.mem_map.2 ⟨entry, hentry, (eq_of_beq hname).symm⟩⟩
    | _ =>
        refine iff_of_false ?_ Bool.false_ne_true
        rintro ⟨fields, hmap, -⟩
        cases hmap

theorem meaning?_eq_none {round : Round} {name : Text} (h : ¬round.Binds name) :
    round.meaning? name = none := by
  rw [binds_iff] at h
  exact Option.not_isSome_iff_eq_none.1 h

end Round

/-! ## Contexts inside of loops -/

namespace Context

/-- The context inside of rounds of loops, the outermost first. -/
def inside (c : Context) (rounds : List Round) : Context :=
  rounds.foldl (fun c round => c.enter round.scope) c

theorem inside_append (c : Context) (rounds rounds' : List Round) :
    c.inside (rounds ++ rounds') = (c.inside rounds).inside rounds' := List.foldl_append

theorem inside_cons (c : Context) (round : Round) (rounds : List Round) :
    c.inside (round :: rounds) = (c.enter round.scope).inside rounds := rfl

variable {name : Text} {path : VarPath}

theorem get?_unbound {rounds : List Round} (h : ∀ round ∈ rounds, ¬round.Binds name)
    (c : Context) : (c.inside rounds).get? name = c.get? name := by
  induction rounds generalizing c with
  | nil => rfl
  | cons round rounds ih =>
      obtain ⟨hround, hrounds⟩ := List.forall_mem_cons.1 h
      rw [inside_cons, ih hrounds, get?_enter, round.lookup_scope, Round.meaning?_eq_none hround,
        Option.none_or]

/-- The innermost round that binds a name tells what the name means. -/
theorem get?_inside {round : Round} (hround : round.Binds name) {back : List Round}
    (hback : ∀ inner ∈ back, ¬inner.Binds name) (c : Context) (front : List Round) :
    (c.inside (front ++ round :: back)).get? name = round.meaning? name := by
  rw [inside_append, inside_cons, get?_unbound hback, get?_enter, round.lookup_scope]
  exact Option.or_of_isSome (Round.binds_iff.1 hround)

theorem resolve_inside {round : Round} (hround : round.Binds path.root) {back : List Round}
    (hback : ∀ inner ∈ back, ¬inner.Binds path.root) (c : Context) (front : List Round) :
    (c.inside (front ++ round :: back)).resolve path =
      (round.meaning? path.root).bind (Value.at? path.segments.tail) := by
  rw [resolve_eq, get?_inside hround hback]

theorem resolve_unbound {rounds : List Round} (h : ∀ round ∈ rounds, ¬round.Binds path.root)
    (c : Context) : (c.inside rounds).resolve path = c.resolve path := by
  rw [resolve_eq, resolve_eq, get?_unbound h]

/-- In a round its own names tell the place of the item in the list. -/
theorem own_inside (c : Context) (rounds : List Round) (round : Round) :
    let inner := c.inside (rounds ++ [round])
    (round.index.val < Value.wholeLimit →
      inner.textOf? Round.indexPath = some (Text.ofNat round.index)) ∧
      inner.holds Round.firstPath = decide (round.index.val = 0) ∧
        inner.holds Round.lastPath = decide (round.index.val + 1 = round.items.length) := by
  intro inner
  have hresolve : ∀ path : VarPath, round.Binds path.root → inner.resolve path =
      (round.meaning? path.root).bind (Value.at? path.segments.tail) := by
    intro path hpath
    have hback : ∀ inner ∈ ([] : List Round), ¬inner.Binds path.root := nofun
    exact resolve_inside hpath hback c rounds
  refine ⟨fun hlimit => ?_, ?_, ?_⟩
  · have hindex : inner.resolve Round.indexPath = some (.number (Float.ofNat round.index)) :=
      hresolve _ (Round.binds_iff.2 rfl)
    rw [textOf?, hindex, ← Value.numberText_ofNat hlimit]
    rfl
  · rw [holds, hresolve _ (Round.binds_iff.2 rfl)]
    rfl
  · rw [holds, hresolve _ (Round.binds_iff.2 rfl)]
    rfl

/-- The contexts of the rounds from some index on, by the place of the item. -/
theorem rounds_eq_ofFn (c : Context) (index : Nat) (items : List Value) :
    c.rounds index items = List.ofFn fun i : Fin items.length =>
      c.enter (loopScope (items.get i) (index + i) (i.val + 1 == items.length)) := by
  induction items generalizing index with
  | nil => rfl
  | cons item items ih =>
      have hlast : items.isEmpty = (0 + 1 == (item :: items).length) := by cases items <;> rfl
      have hnext (i : Fin items.length) : index + 1 + i.val = index + i.succ.val := by
        rw [Fin.val_succ]
        omega
      have hend (i : Fin items.length) : (i.val + 1 == items.length) =
          (i.succ.val + 1 == (item :: items).length) := by
        rw [Fin.val_succ, List.length_cons, Bool.eq_iff_iff, beq_iff_eq, beq_iff_eq]
        omega
      rw [rounds, ih, List.ofFn_succ, hlast]
      simp only [hnext, hend]
      rfl

theorem rounds_eq (c : Context) (items : List Value) :
    c.rounds 0 items = (Round.all items).map fun round => c.inside [round] := by
  rw [rounds_eq_ofFn, Round.all, List.map_ofFn]
  congr 1
  funext i
  rw [Nat.zero_add]
  rfl

end Context

/-! ## Outputs of loops -/

namespace Output

theorem concat_append (os os' : List Output) :
    concat (os ++ os') = concat os ++ concat os' := by
  induction os with
  | nil => rfl
  | cons o os ih =>
      show o ++ concat (os ++ os') = o ++ concat os ++ concat os'
      rw [ih, append_assoc]

/-- An output stands somewhere in another one, with its text and its warnings. -/
def PartOf (o whole : Output) : Prop := ∃ front back, whole = front ++ (o ++ back)

namespace PartOf

variable {o a b : Output}

theorem refl (o : Output) : PartOf o o := ⟨empty, empty, by rw [append_empty, empty_append]⟩

theorem left (h : PartOf o a) (b : Output) : PartOf o (a ++ b) := by
  obtain ⟨front, back, rfl⟩ := h
  exact ⟨front, back ++ b, by rw [append_assoc, append_assoc]⟩

theorem right (h : PartOf o b) (a : Output) : PartOf o (a ++ b) := by
  obtain ⟨front, back, rfl⟩ := h
  exact ⟨a ++ front, back, by rw [append_assoc]⟩

theorem concat {os : List Output} (h : PartOf o a) (ha : a ∈ os) : PartOf o (concat os) := by
  obtain ⟨front, back, rfl⟩ := List.append_of_mem ha
  rw [concat_append]
  exact (h.left (Output.concat back)).right (Output.concat front)

end PartOf

end Output

/-- The evaluation of some nodes in a context comes to a node inside of rounds of loops. -/
inductive Reaches (n : Node) : Context → List Node → List Round → Prop where
  | here (c : Context) (ns : List Node) : Reaches n c (n :: ns) []
  | next {c : Context} (m : Node) {ns : List Node} {rounds : List Round}
      (h : Reaches n c ns rounds) : Reaches n c (m :: ns) rounds
  | when {c : Context} {number : UInt32} {span : Span} {condition : VarPath} {body ns : List Node}
      {rounds : List Round} (hholds : c.holds condition = true) (h : Reaches n c body rounds) :
      Reaches n c (.when number span condition body :: ns) rounds
  | yes {c : Context} {number : UInt32} {span : Span} {condition : VarPath} {yes no ns : List Node}
      {rounds : List Round} (hholds : c.holds condition = true) (h : Reaches n c yes rounds) :
      Reaches n c (.choice number span condition yes no :: ns) rounds
  | no {c : Context} {number : UInt32} {span : Span} {condition : VarPath} {yes no ns : List Node}
      {rounds : List Round} (hholds : c.holds condition = false) (h : Reaches n c no rounds) :
      Reaches n c (.choice number span condition yes no :: ns) rounds
  | round {c : Context} {number : UInt32} {span : Span} {path : VarPath} {body ns : List Node}
      {rounds : List Round} (round : Round) (hlist : c.resolve path = some (.list round.items))
      (h : Reaches n (c.enter round.scope) body rounds) :
      Reaches n c (.each number span path body :: ns) (round :: rounds)

namespace Renderer

variable (r : Renderer) (expand? : Option Expansion) (escape : Escape)

theorem evalNode_each (c : Context) (number : UInt32) (span : Span) (path : VarPath)
    (body : List Node) :
    r.evalNode expand? escape c (.each number span path body) =
      .concat ((Round.all (c.itemsOf path)).map fun round =>
        r.evalNodes expand? escape (c.inside [round]) body) := by
  rw [evalNode, Context.rounds_eq, List.map_map]
  rfl

/-- A node that the evaluation comes to is evaluated in the context inside of the rounds. -/
theorem partOf_of_reaches {n : Node} {c : Context} {ns : List Node} {rounds : List Round}
    (h : Reaches n c ns rounds) :
    (r.evalNode expand? escape (c.inside rounds) n).PartOf (r.evalNodes expand? escape c ns) := by
  induction h with
  | here c ns => exact (Output.PartOf.refl _).left _
  | next m _ ih => exact ih.right _
  | when hholds _ ih =>
      rw [evalNodes, evalNode, if_pos hholds]
      exact ih.left _
  | yes hholds _ ih =>
      rw [evalNodes, evalNode, if_pos hholds]
      exact ih.left _
  | no hholds _ ih =>
      rw [evalNodes, evalNode, hholds]
      exact ih.left _
  | @round c number span path body ns rounds round hlist _ ih =>
      have hitems : c.itemsOf path = round.items := by rw [Context.itemsOf, hlist]
      have hmem : round ∈ Round.all round.items := List.mem_ofFn.2 ⟨round.index, rfl⟩
      rw [evalNodes, evalNode_each, hitems]
      exact (ih.concat (List.mem_map.2 ⟨round, hmem, rfl⟩)).left _

/-- Loops and what names mean inside of them.  A loop over a list puts the outputs of its rounds in
    a row, one for each item, and a loop over anything else gives nothing; what follows is evaluated
    as what is in front.  A node that the evaluation comes to inside of loops is evaluated in the
    context inside of the rounds, where the innermost round that binds the root of a path tells what
    the path leads to, and without such a round the path leads to what it leads to outside.  Three
    names tell the place of the item in its list.  The order of the fields of maps plays no part. -/
theorem evalNodes_loops (r : Renderer) (levels : Nat) (escape : Escape) (c : Context) :
    let expand? := r.expansion levels
    let eval := r.evalNodes expand? escape
    (∀ number span path body before after items, c.resolve path = some (.list items) →
      eval c (before ++ .each number span path body :: after) =
        eval c before ++
          (.concat ((Round.all items).map fun round => eval (c.inside [round]) body) ++
            eval c after)) ∧
      (∀ number span path body before after, (∀ items, c.resolve path ≠ some (.list items)) →
        eval c (before ++ .each number span path body :: after) = eval c before ++ eval c after) ∧
      (∀ n ns rounds, Reaches n c ns rounds →
        (r.evalNode expand? escape (c.inside rounds) n).PartOf (eval c ns)) ∧
      (∀ (path : VarPath) front (round : Round) back, round.Binds path.root →
        (∀ inner ∈ back, ¬inner.Binds path.root) →
          (c.inside (front ++ round :: back)).resolve path =
            (round.meaning? path.root).bind (Value.at? path.segments.tail)) ∧
      (∀ (path : VarPath) rounds, (∀ round ∈ rounds, ¬round.Binds path.root) →
        (c.inside rounds).resolve path = c.resolve path) ∧
      (∀ rounds (round : Round),
        let inner := c.inside (rounds ++ [round])
        (round.index.val < Value.wholeLimit →
          inner.textOf? Round.indexPath = some (Text.ofNat round.index)) ∧
          inner.holds Round.firstPath = decide (round.index.val = 0) ∧
            inner.holds Round.lastPath = decide (round.index.val + 1 = round.items.length)) ∧
      (∀ c', c.Reordered c' → ∀ ns, eval c ns = eval c' ns) ∧
      ∀ fields fields' : List (Text × Value), fields.Perm fields' →
        (fields.map Prod.fst).Nodup → Value.Reordered (.map fields) (.map fields') := by
  intro expand? eval
  have hloop : ∀ number span path body before after,
      eval c (before ++ .each number span path body :: after) =
        eval c before ++ (.concat ((Round.all (c.itemsOf path)).map fun round =>
          eval (c.inside [round]) body) ++ eval c after) := by
    intro number span path body before after
    show r.evalNodes expand? escape c _ = _
    rw [evalNodes_append, evalNodes, evalNode_each]
  refine ⟨?_, ?_, ?_, ?_, ?_, c.own_inside, ?_,
    fun _ _ => Value.reordered_of_perm⟩
  · intro number span path body before after items hlist
    have hitems : c.itemsOf path = items := by rw [Context.itemsOf, hlist]
    rw [hloop, hitems]
  · intro number span path body before after hlist
    have hitems : c.itemsOf path = [] := by
      rw [Context.itemsOf]
      split
      · exact absurd ‹_› (hlist _)
      · rfl
    rw [hloop, hitems]
    rfl
  · intro n ns rounds h
    exact r.partOf_of_reaches expand? escape h
  · intro path front round back hround hback
    exact Context.resolve_inside hround hback c front
  · intro path rounds hrounds
    exact Context.resolve_unbound hrounds c
  · intro c' h ns
    exact evalNodes_reordered (r.expandsReordered levels) ns h

/-- In a loop inside of a loop, a field without a value hides the same field of the item outside,
    and a field with the name of the item itself does not hide the item. -/
theorem evalNodes_loops_hidden :
    let innermost : Value := .map [(['a'], .null), ("this".toList, .bool true)]
    let item : Value := .map [(['a'], .bool true), (['x'], .list [innermost])]
    let c : Context := ⟨[(['x'], .list [item])], []⟩
    let rounds : List Round := [⟨[item], 0⟩, ⟨[innermost], 0⟩]
    let a : VarPath := ⟨[['a']], rfl⟩
    let this : VarPath := ⟨["this".toList], rfl⟩
    let x : VarPath := ⟨[['x']], rfl⟩
    let n : Node := .leaf 0 ⟨0, 0⟩ (braced ['a']) (.variable a)
    let r : Renderer := ⟨⟨[], []⟩, 0, 0⟩
    (r.evalNode none .verbatim (c.inside rounds) n).PartOf
        (r.evalNodes none .verbatim c [.each 2 ⟨0, 0⟩ x [.each 1 ⟨0, 0⟩ x [n]]]) ∧
      (c.inside rounds).resolve a = some .null ∧
        (c.inside rounds).resolve this = some innermost ∧
          (c.inside rounds).resolve x = some (.list [innermost]) := by
  intro innermost item c rounds a this x n r
  obtain ⟨-, -, hnode, hbound, -, -, -, -⟩ := r.evalNodes_loops 0 .verbatim c
  have hfield : (⟨[innermost], 0⟩ : Round).Binds ['a'] := .inr ⟨_, rfl, List.mem_cons_self⟩
  have hthis : (⟨[innermost], 0⟩ : Round).Binds "this".toList := Round.binds_iff.2 rfl
  have houter : (⟨[item], 0⟩ : Round).Binds ['x'] := Round.binds_iff.2 rfl
  have hinner : ∀ inner ∈ [(⟨[innermost], 0⟩ : Round)], ¬inner.Binds ['x'] := by
    intro inner hmem
    obtain rfl := List.mem_singleton.1 hmem
    exact fun h => Bool.false_ne_true (Round.binds_iff.1 h)
  refine ⟨hnode n _ rounds (.round ⟨[item], 0⟩ rfl (.round ⟨[innermost], 0⟩ rfl (.here _ _))),
    ?_, ?_, ?_⟩
  · exact hbound a [⟨[item], 0⟩] ⟨[innermost], 0⟩ [] hfield nofun
  · exact hbound this [⟨[item], 0⟩] ⟨[innermost], 0⟩ [] hthis nofun
  · exact hbound x [] ⟨[item], 0⟩ [⟨[innermost], 0⟩] houter hinner

end Renderer

end PagePress
