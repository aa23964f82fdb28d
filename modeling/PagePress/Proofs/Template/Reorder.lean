/-
  PagePress.Proofs.Template.Reorder

  The order of the fields of maps.

  Values that differ at most in the order of the fields of maps have the same
  text, decide conditions alike and are lists of as many elements
  (`Value.Reordered`).  What a path leads to in one of them differs from what
  it leads to in the other at most in this order again.  So contexts in which
  every name means the same but for the order give the same output
  (`Renderer.evaluate_reordered`), through loops and nested patterns.
-/

import PagePress.Proofs.Template.Mention

namespace PagePress

/-! ## Values -/

theorem Dictionary.lookup_cons_eq {α : Type} (k name : Text) (x : α) (es : List (Text × α)) :
    ((k, x) :: es).lookup name = if name = k then some x else es.lookup name := by
  rw [List.lookup_cons]
  by_cases h : name = k
  · rw [if_pos h, h, beq_self_eq_true]
  · rw [if_neg h, beq_false_of_ne h]

open Dictionary (lookup_cons_eq)

namespace Value

/-- Values that differ at most in the order of the fields of maps, at any depth.  Fields with the
    same name stay in their order. -/
inductive Reordered : Value → Value → Prop where
  | refl (v : Value) : Reordered v v
  | trans {u v w : Value} (h : Reordered u v) (h' : Reordered v w) : Reordered u w
  | item (front back : List Value) {v w : Value} (h : Reordered v w) :
      Reordered (.list (front ++ v :: back)) (.list (front ++ w :: back))
  | field (front back : List (Text × Value)) (name : Text) {v w : Value} (h : Reordered v w) :
      Reordered (.map (front ++ (name, v) :: back)) (.map (front ++ (name, w) :: back))
  | swap (front back : List (Text × Value)) {x y : Text × Value} (h : x.1 ≠ y.1) :
      Reordered (.map (front ++ x :: y :: back)) (.map (front ++ y :: x :: back))

/-- The elements of a list. -/
def items : Value → List Value
  | .list items => items
  | _ => []

/-- A field of a map. -/
def field? (name : Text) : Value → Option Value
  | .map fields => fields.lookup name
  | _ => none

theorem at?_singleton (v : Value) (name : Text) : v.at? [name] = v.field? name := by
  cases v with
  | map fields =>
      rw [at?, field?]
      cases fields.lookup name <;> rfl
  | _ => rfl

theorem renderEach_eq (vs : List Value) : renderEach vs = vs.filterMap render? := by
  induction vs with
  | nil => rfl
  | cons v vs ih =>
      rw [renderEach, List.filterMap_cons, ih]
      cases v.render? <;> rfl

theorem lookup_swap {x y : Text × Value} (h : x.1 ≠ y.1) (front back : List (Text × Value))
    (name : Text) :
    (front ++ x :: y :: back).lookup name = (front ++ y :: x :: back).lookup name := by
  obtain ⟨k, v⟩ := x
  obtain ⟨l, w⟩ := y
  rw [List.lookup_append, List.lookup_append]
  by_cases hk : name = k
  · have hl : name ≠ l := fun hl => h (hk.symm.trans hl)
    simp only [lookup_cons_eq, if_neg hl]
  · simp only [lookup_cons_eq, if_neg hk]

/-- Any order of fields with different names. -/
theorem reordered_of_perm {fields fields' : List (Text × Value)} (h : fields.Perm fields')
    (hnodup : (fields.map Prod.fst).Nodup) : Reordered (.map fields) (.map fields') := by
  -- fields in front stay where they are
  have hall : ∀ front, Reordered (.map (front ++ fields)) (.map (front ++ fields')) := by
    induction h with
    | nil => exact fun front => .refl _
    | @cons x fields fields' _ ih =>
        intro front
        have hfront := ih (List.nodup_cons.1 hnodup).2 (front ++ [x])
        rwa [List.append_assoc, List.append_assoc] at hfront
    | swap x y fields =>
        have hne : y.1 ≠ x.1 := fun h => (List.nodup_cons.1 hnodup).1 (h ▸ List.mem_cons_self)
        exact fun front => .swap front fields hne
    | trans h _ ih ih' =>
        exact fun front => .trans (ih hnodup front) (ih' ((h.map _).nodup hnodup) front)
  exact hall []

namespace Reordered

variable {v w : Value}

theorem render?_eq (h : Reordered v w) : v.render? = w.render? := by
  induction h with
  | refl => rfl
  | trans _ _ ih ih' => exact ih.trans ih'
  | item front back _ ih =>
      rw [render?, render?, renderEach_eq, renderEach_eq, List.filterMap_append,
        List.filterMap_append, List.filterMap_cons, List.filterMap_cons, ih]
  | field => rfl
  | swap => rfl

theorem truthy_eq (h : Reordered v w) : v.truthy = w.truthy := by
  induction h with
  | refl => rfl
  | trans _ _ ih ih' => exact ih.trans ih'
  | item front | field front | swap front => cases front <;> rfl

theorem trans_all {us vs ws : List Value} (h : List.Forall₂ Reordered us vs)
    (h' : List.Forall₂ Reordered vs ws) : List.Forall₂ Reordered us ws := by
  induction h generalizing ws with
  | nil => exact h'
  | cons h _ ih =>
      cases h' with
      | cons h' hs => exact .cons (.trans h h') (ih hs)

theorem items (h : Reordered v w) : List.Forall₂ Reordered v.items w.items := by
  have hsame : ∀ vs, List.Forall₂ Reordered vs vs :=
    fun vs => List.forall₂_same.2 fun v _ => .refl v
  induction h with
  | refl v => exact hsame v.items
  | trans _ _ ih ih' => exact trans_all ih ih'
  | item front back h _ => exact List.rel_append (hsame front) (.cons h (hsame back))
  | field | swap => exact .nil

/-! ### Values that may be missing -/

section

variable {u? v? w? : Option Value}

theorem same (v? : Option Value) : Option.Rel Reordered v? v? := by
  cases v? with
  | none => exact .none
  | some v => exact .some (.refl v)

theorem trans_option (h : Option.Rel Reordered u? v?) (h' : Option.Rel Reordered v? w?) :
    Option.Rel Reordered u? w? := by
  cases h with
  | none => exact h'
  | some h =>
      cases h' with
      | some h' => exact .some (.trans h h')

theorem or {v'? w'? : Option Value} (h : Option.Rel Reordered v? w?)
    (h' : Option.Rel Reordered v'? w'?) : Option.Rel Reordered (v?.or v'?) (w?.or w'?) := by
  cases h with
  | none => exact h'
  | some h => exact .some h

theorem bind_render? (h : Option.Rel Reordered v? w?) : v?.bind render? = w?.bind render? := by
  cases h with
  | none => rfl
  | some h => exact h.render?_eq

theorem any_truthy (h : Option.Rel Reordered v? w?) : v?.any truthy = w?.any truthy := by
  cases h with
  | none => rfl
  | some h => exact h.truthy_eq

theorem elim_items (h : Option.Rel Reordered v? w?) :
    List.Forall₂ Reordered (v?.elim [] Value.items) (w?.elim [] Value.items) := by
  cases h with
  | none => exact .nil
  | some h => exact h.items

end

/-- What a path leads to is reordered as well. -/
theorem at? (h : Reordered v w) (keys : List Text) :
    Option.Rel Reordered (v.at? keys) (w.at? keys) := by
  cases keys with
  | nil => exact .some h
  | cons key keys =>
      induction h generalizing key keys with
      | refl v => exact same _
      | trans _ _ ih ih' => exact trans_option (ih key keys) (ih' key keys)
      | item => exact .none
      | @field front back name v w h ih =>
          rw [Value.at?, Value.at?, List.lookup_append, List.lookup_append, lookup_cons_eq,
            lookup_cons_eq]
          cases front.lookup key with
          | some u => exact same _
          | none =>
              by_cases hkey : key = name
              · rw [if_pos hkey, if_pos hkey]
                cases keys with
                | nil => exact .some h
                | cons key keys => exact ih key keys
              · rw [if_neg hkey, if_neg hkey]
                exact same _
      | swap front back h =>
          rw [Value.at?, Value.at?, lookup_swap h]
          exact same _

theorem bind_at? {v? w? : Option Value} (h : Option.Rel Reordered v? w?) (keys : List Text) :
    Option.Rel Reordered (v?.bind (Value.at? keys)) (w?.bind (Value.at? keys)) := by
  cases h with
  | none => exact .none
  | some h => exact h.at? keys

end Reordered

end Value

/-! ## Contexts -/

namespace Context

theorem itemsOf_eq (c : Context) (path : VarPath) :
    c.itemsOf path = (c.resolve path).elim [] Value.items := by
  rw [itemsOf]
  rcases c.resolve path with _ | _ | _ | _ | _ | _ | _ <;> rfl

/-- What a name means in the scope of a round: something about the place in the list, the item, or
    a field of it. -/
theorem lookup_loopScope (item : Value) (index : Nat) (last : Bool) (name : Text) :
    (loopScope item index last).lookup name =
      if name = "@last".toList then some (.bool last)
      else if name = "@first".toList then some (.bool (index == 0))
      else if name = "@index".toList then some (.number (Float.ofNat index))
      else if name = "this".toList then some item
      else item.field? name := by
  cases item with
  | map fields =>
      simp only [loopScope, List.cons_append, List.nil_append, lookup_cons_eq]
      rfl
  | _ =>
      simp only [loopScope, List.append_nil, lookup_cons_eq]
      rfl

/-- In two contexts every name means the same but for the order of fields. -/
def Reordered (c c' : Context) : Prop :=
  ∀ name, Option.Rel Value.Reordered (c.get? name) (c'.get? name)

namespace Reordered

variable {c c' : Context}

theorem resolve (h : Reordered c c') (path : VarPath) :
    Option.Rel Value.Reordered (c.resolve path) (c'.resolve path) := by
  rw [resolve_eq, resolve_eq]
  exact Value.Reordered.bind_at? (h path.root) path.segments.tail

theorem textOf? (h : Reordered c c') (path : VarPath) : c.textOf? path = c'.textOf? path :=
  Value.Reordered.bind_render? (h.resolve path)

theorem holds (h : Reordered c c') (path : VarPath) : c.holds path = c'.holds path :=
  Value.Reordered.any_truthy (h.resolve path)

theorem itemsOf (h : Reordered c c') (path : VarPath) :
    List.Forall₂ Value.Reordered (c.itemsOf path) (c'.itemsOf path) := by
  rw [itemsOf_eq, itemsOf_eq]
  exact Value.Reordered.elim_items (h.resolve path)

theorem enter_loopScope (h : Reordered c c') {item item' : Value}
    (hitem : Value.Reordered item item') (index : Nat) (last : Bool) :
    Reordered (c.enter (loopScope item index last)) (c'.enter (loopScope item' index last)) := by
  intro name
  rw [get?_enter, get?_enter, lookup_loopScope, lookup_loopScope]
  refine Value.Reordered.or ?_ (h name)
  split_ifs
  · exact .some (.refl _)
  · exact .some (.refl _)
  · exact .some (.refl _)
  · exact .some hitem
  · rw [← Value.at?_singleton, ← Value.at?_singleton]
    exact hitem.at? [name]

theorem rounds (h : Reordered c c') (index : Nat) {items items' : List Value}
    (hitems : List.Forall₂ Value.Reordered items items') :
    List.Forall₂ Reordered (c.rounds index items) (c'.rounds index items') := by
  induction hitems generalizing index with
  | nil => exact .nil
  | @cons item item' items items' hitem hitems ih =>
      have hlast : items.isEmpty = items'.isEmpty := by cases hitems <;> rfl
      rw [Context.rounds, Context.rounds, hlast]
      exact .cons (h.enter_loopScope hitem index _) (ih (index + 1))

end Reordered

end Context

open Context (Reordered)

/-! ## Evaluation -/

/-- Patterns are expanded alike in contexts that are reordered. -/
def ExpandsReordered (expand? : Option Expansion) : Prop :=
  ∀ expand, expand? = some expand → ∀ source c c', Reordered c c' →
    expand source c = expand source c'

namespace Renderer

variable {r : Renderer} {expand? : Option Expansion} {escape : Escape}

mutual

theorem evalNode_reordered (hexpand : ExpandsReordered expand?) (n : Node) {c c' : Context}
    (h : Reordered c c') : r.evalNode expand? escape c n = r.evalNode expand? escape c' n := by
  cases n with
  | leaf number span raw content =>
      rw [evalNode, evalNode]
      exact evalLeaf_congr (fun path _ => h.textOf? path)
        (fun expand hsome source _ => hexpand expand hsome source c c' h) raw
  | when number span condition body =>
      rw [evalNode, evalNode, h.holds condition, evalNodes_reordered hexpand body h]
  | choice number span condition yes no =>
      rw [evalNode, evalNode, h.holds condition, evalNodes_reordered hexpand yes h,
        evalNodes_reordered hexpand no h]
  | each number span path body =>
      rw [evalNode, evalNode]
      exact Output.concat_congr (fun _ _ hround => evalNodes_reordered hexpand body hround)
        (h.rounds 0 (h.itemsOf path))

theorem evalNodes_reordered (hexpand : ExpandsReordered expand?) (ns : List Node) {c c' : Context}
    (h : Reordered c c') : r.evalNodes expand? escape c ns = r.evalNodes expand? escape c' ns := by
  cases ns with
  | nil => rfl
  | cons n ns =>
      rw [evalNodes, evalNodes, evalNode_reordered hexpand n h, evalNodes_reordered hexpand ns h]

end

/-- Patterns of any depth are expanded alike. -/
theorem expandsReordered (r : Renderer) (levels : Nat) :
    ExpandsReordered (r.expansion levels) := by
  induction levels with
  | zero => exact fun _ hnone => absurd hnone.symm (Option.some_ne_none _)
  | succ levels ih =>
      rintro _ ⟨⟩ source c c' h
      exact congrArg (Output.append _) (evalNodes_reordered ih _ h)

/-- The order of the fields of maps plays no part in the output of a template. -/
theorem evaluate_reordered (r : Renderer) (escape : Escape) (t : Template) {c c' : Context}
    (h : Reordered c c') :
    r.evaluate escape c t = r.evaluate escape c' t :=
  congrArg (Output.append _) (evalNodes_reordered (r.expandsReordered r.depthLimit) t.nodes h)

end Renderer

end PagePress
