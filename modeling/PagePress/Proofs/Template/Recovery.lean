/-
  PagePress.Proofs.Template.Recovery

  What the reader of templates makes of tokens that are not balanced.

  At any point of a run the tokens read so far are explained by the state:
  once some of their block tags count as text, they are what comes before the
  innermost sequence in the open blocks, followed by tokens that derive that
  sequence.  Giving up a block turns its tags into text and keeps the
  explanation.  So every tree is the derivation of its tokens with some block
  tags settled as text (`draft_settles`), and none is settled unless it is
  reported.
-/

import PagePress.Proofs.Template.Balance

namespace PagePress

open Node (unnumberedAll)

/-! ## Settling block tags as text -/

/-- The second tokens are the first with some block tags turned into text. -/
inductive Settles : List Token → List Token → Prop where
  | nil : Settles [] []
  | keep (t : Token) {ts us : List Token} (rest : Settles ts us) : Settles (t :: ts) (t :: us)
  | demote {t : Token} {ts us : List Token} (ht : t.isBlockTag = true) (rest : Settles ts us) :
      Settles (t :: ts) (t.demote :: us)

namespace Settles

theorem refl (ts : List Token) : Settles ts ts := by
  induction ts with
  | nil => exact .nil
  | cons t ts ih => exact .keep t ih

theorem append {ts us ts' us' : List Token} (h : Settles ts us) (h' : Settles ts' us') :
    Settles (ts ++ ts') (us ++ us') := by
  induction h with
  | nil => exact h'
  | keep t _ ih => exact .keep t ih
  | demote ht _ ih => exact .demote ht ih

theorem trans {ts us vs : List Token} (h : Settles ts us) (h' : Settles us vs) :
    Settles ts vs := by
  induction h generalizing vs with
  | nil => exact h'
  | keep t _ ih =>
      cases h' with
      | keep _ rest => exact .keep t (ih rest)
      | demote ht rest => exact .demote ht (ih rest)
  | @demote t _ _ ht _ ih =>
      cases h' with
      | keep _ rest => exact .demote ht (ih rest)
      | demote ht' _ =>
          rw [Token.isBlockTag_demote] at ht'
          exact absurd ht' Bool.false_ne_true

theorem demote_mid (ts us : List Token) {t : Token} (ht : t.isBlockTag = true) :
    Settles (ts ++ t :: us) (ts ++ t.demote :: us) :=
  (refl ts).append (.demote ht (refl us))

end Settles

/-! ## Open blocks -/

/-- The tag that starts a block. -/
def BlockKind.opener : BlockKind → Tag
  | .conditional condition => .openIf condition
  | .loop path => .openEach path

theorem BlockKind.leaf?_opener (kind : BlockKind) : kind.opener.leaf? = none := by
  cases kind <;> rfl

/-- The tokens are those of an open block from its opening tag to the start of the branch that is
    being read. -/
inductive Block.Began : Block → List Token → Prop where
  | undivided {kind : BlockKind} {o : Token} (before : List Node)
      (ho : o.tag? = some kind.opener) : Began ⟨kind, o, before, none⟩ [o]
  | divided {condition : VarPath} {o t : Token} (before : List Node) {first : List Node}
      {vs : List Token} (ho : o.tag? = some (.openIf condition)) (hfirst : Derives vs first)
      (ht : t.tag? = some .otherwise) :
      Began ⟨.conditional condition, o, before, some (first, t)⟩ (o :: (vs ++ [t]))

/-- The tokens are what comes before the innermost sequence in some open blocks. -/
inductive Opens : List Block → List Token → Prop where
  | nil : Opens [] []
  | cons {b : Block} {bs : List Block} {us vs ws : List Token} (outer : Opens bs us)
      (before : Derives vs b.before) (began : b.Began ws) : Opens (b :: bs) (us ++ (vs ++ ws))

/-- A state explains the tokens read so far: with some block tags settled as text they are `us`,
    which comes before the innermost sequence, and `vs`, which derives it; while nothing is
    reported, nothing is settled. -/
structure Explains (ts us vs : List Token) (a : Assembly) : Prop where
  opens : Opens a.blocks us
  derives : Derives vs a.draft.nodes
  settles : Settles ts (us ++ vs)
  clean : a.draft.warnings = [] → us ++ vs = ts

namespace Explains

variable {ts us vs : List Token}

/-! ## Giving up and ending blocks -/

/-- Giving up the innermost block settles its tags as text. -/
theorem giveUp {b : Block} {bs : List Block} {d : Draft} (h : Explains ts us vs ⟨b :: bs, d⟩) :
    ∃ us' vs', Explains ts us' vs' ⟨bs, d.giveUp b⟩ := by
  obtain ⟨hopens, hderives, hsettles, -⟩ := h
  cases hopens with
  | @cons _ _ us xs ws outer before began =>
    -- what was before the block, its tags as text and what was inside it are one sequence now
    cases began with
    | @undivided kind o _ ho =>
        refine ⟨us, xs ++ o.demote :: vs, outer, ?_, ?_, ?_⟩
        · exact before.append (.leaf _ rfl hderives)
        · have ht := Token.isBlockTag_of_tag? ho kind.leaf?_opener
          have hs := Settles.demote_mid (us ++ xs) vs ht
          simp only [List.append_assoc, List.cons_append, List.nil_append] at hsettles hs
          exact hsettles.trans hs
        · -- a given-up block is reported
          intro hw
          simp [Draft.giveUp, Draft.warn] at hw
    | @divided condition o t _ first fs ho hfirst ht =>
        refine ⟨us, xs ++ o.demote :: (fs ++ t.demote :: vs), outer, ?_, ?_, ?_⟩
        · exact before.append (.leaf _ rfl (hfirst.append (.leaf _ rfl hderives)))
        · -- two tags are settled, one after the other
          have h₁ := Settles.demote_mid (us ++ xs) (fs ++ t :: vs)
            (Token.isBlockTag_of_tag? ho rfl)
          have h₂ := Settles.demote_mid (us ++ (xs ++ o.demote :: fs)) vs
            (Token.isBlockTag_of_tag? ht rfl)
          simp only [List.append_assoc, List.cons_append, List.nil_append] at hsettles h₁ h₂
          exact (hsettles.trans h₁).trans h₂
        · intro hw
          simp [Draft.giveUp, Draft.warn] at hw

/-- Giving up blocks keeps the tokens explained. -/
theorem unwind (stop : Block → Bool) {bs : List Block} {d : Draft}
    (h : Explains ts us vs ⟨bs, d⟩) :
    ∃ us' vs', Explains ts us' vs' (Assembly.unwind stop bs d) := by
  induction bs generalizing us vs d with
  | nil => exact ⟨us, vs, h⟩
  | cons b bs ih =>
      unfold Assembly.unwind
      by_cases hb : stop b = true
      · rw [if_pos hb]
        exact ⟨us, vs, h⟩
      · rw [if_neg hb]
        obtain ⟨us', vs', h'⟩ := h.giveUp
        exact ih h'

/-- The closing tag of the innermost block completes its derivation. -/
theorem finish {b : Block} {bs : List Block} {d : Draft} {t : Token}
    (h : Explains ts us vs ⟨b :: bs, d⟩) (ht : t.tag? = some b.kind.closer) :
    ∃ us' vs', Explains (ts ++ [t]) us' vs' ⟨bs, d.finish b⟩ := by
  obtain ⟨hopens, hderives, hsettles, hclean⟩ := h
  cases hopens with
  | @cons _ _ us xs ws outer before began =>
    -- the block moves from the open part into the sequence around it
    refine ⟨us, xs ++ (ws ++ (vs ++ [t])), outer, before.append ?_, ?_, ?_⟩
    · cases began with
      | @undivided kind o _ ho =>
          cases kind with
          | conditional condition => exact .when _ ho hderives ht .nil
          | loop path => exact .each _ ho hderives ht .nil
      | @divided condition o m _ first fs ho hfirst hm =>
          simp only [List.cons_append, List.append_assoc, List.nil_append]
          exact .choice _ ho hfirst hm hderives ht .nil
    · have hs := hsettles.append (Settles.refl [t])
      simp only [List.append_assoc] at hs
      exact hs
    · intro hw
      have hc := hclean hw
      simp only [List.append_assoc] at hc
      rw [← hc]
      simp only [List.append_assoc]

/-! ## Steps -/

/-- A leaf continues the innermost sequence. -/
theorem addLeaf {a : Assembly} (h : Explains ts us vs a) {t : Token} {content : Leaf}
    (ht : t.leaf? = some content) : Explains (ts ++ [t]) us (vs ++ [t]) (a.addLeaf t content) where
  opens := h.opens
  derives := h.derives.append (.singleton _ ht)
  settles := by
    rw [← List.append_assoc]
    exact h.settles.append (.refl [t])
  clean hw := by
    rw [← List.append_assoc, h.clean hw]

/-- A block tag without a block of its kind is settled as text. -/
theorem addStray {a : Assembly} (h : Explains ts us vs a) {t : Token}
    (ht : t.isBlockTag = true) :
    Explains (ts ++ [t]) us (vs ++ [t.demote]) ⟨a.blocks, a.draft.addStray t⟩ where
  opens := h.opens
  derives := h.derives.append (.singleton _ t.leaf?_demote)
  settles := by
    rw [← List.append_assoc]
    exact h.settles.append (.demote ht .nil)
  clean hw := by
    simp [Draft.addStray, Draft.addLeaf, Draft.warn] at hw

/-- An opener starts a block whose first branch is empty so far. -/
theorem openBlock {a : Assembly} (h : Explains ts us vs a) {t : Token} (kind : BlockKind)
    (ht : t.tag? = some kind.opener) :
    Explains (ts ++ [t]) (us ++ (vs ++ [t])) [] (a.openBlock t kind) where
  opens := .cons h.opens h.derives (.undivided _ ht)
  derives := .nil
  settles := by
    rw [List.append_nil, ← List.append_assoc]
    exact h.settles.append (.refl [t])
  clean hw := by
    rw [List.append_nil, ← List.append_assoc, h.clean hw]

/-- A dividing tag divides the innermost block or is settled as text. -/
theorem divide {a : Assembly} (h : Explains ts us vs a) {t : Token}
    (ht : t.tag? = some .otherwise) :
    ∃ us' vs', Explains (ts ++ [t]) us' vs' (a.divide t) := by
  unfold Assembly.divide
  split
  · rename_i condition o before outer hblocks
    obtain ⟨hopens, hderives, hsettles, hclean⟩ := h
    rw [hblocks] at hopens
    cases hopens with
    | @cons _ _ us xs ws houter hbefore hbegan =>
      -- a block that is divided already is not met in this branch of the match
      cases hbegan with
      | undivided _ ho =>
        refine ⟨us ++ (xs ++ o :: (vs ++ [t])), [], ?_, .nil, ?_, ?_⟩
        · exact .cons houter hbefore (.divided _ ho hderives ht)
        · have hs := hsettles.append (Settles.refl [t])
          simp only [List.append_assoc, List.cons_append, List.nil_append] at hs
          simp only [List.append_nil]
          exact hs
        · intro hw
          rw [← hclean hw]
          simp only [List.append_assoc, List.cons_append, List.nil_append, List.append_nil]
  · exact ⟨us, vs ++ [t.demote], h.addStray (Token.isBlockTag_of_tag? ht rfl)⟩

end Explains

/-- Giving up blocks stops at a block that the condition holds for. -/
theorem Assembly.stop_of_unwind {stop : Block → Bool} {bs outer : List Block} {b : Block}
    {d : Draft} (h : (unwind stop bs d).blocks = b :: outer) : stop b = true := by
  induction bs generalizing d with
  | nil => simp [unwind] at h
  | cons c bs ih =>
      unfold unwind at h
      by_cases hc : stop c = true
      · rw [if_pos hc] at h
        simp only [List.cons.injEq] at h
        rw [← h.1]
        exact hc
      · rw [if_neg hc] at h
        exact ih h

namespace Explains

variable {ts us vs : List Token}

/-- A closing tag ends the innermost block of its kind or is settled as text. -/
theorem closeBlock {a : Assembly} (h : Explains ts us vs a) {t : Token} {tag : Tag}
    (ht : t.tag? = some tag) (hl : tag.leaf? = none) :
    ∃ us' vs', Explains (ts ++ [t]) us' vs' (a.closeBlock t tag) := by
  unfold Assembly.closeBlock
  split
  · rename_i b outer d hunwind
    -- the blocks inside the one that ends are given up first
    obtain ⟨us', vs', h'⟩ := h.unwind (fun b => b.kind.closer == tag)
    have hstop := Assembly.stop_of_unwind (congrArg Assembly.blocks hunwind)
    rw [hunwind] at h'
    exact h'.finish (ht.trans (congrArg some (eq_of_beq hstop).symm))
  · -- no block ends with the tag, and none was given up for it
    exact ⟨us, vs ++ [t.demote], h.addStray (Token.isBlockTag_of_tag? ht hl)⟩

/-- One more token stays explained. -/
theorem step {a : Assembly} (h : Explains ts us vs a) (t : Token) :
    ∃ us' vs', Explains (ts ++ [t]) us' vs' (a.step t) := by
  -- the six leaf tags and plain text step alike, the five block tags each in their own way
  cases hl : t.leaf? with
  | some content =>
      rw [Assembly.step_leaf hl]
      exact ⟨us, vs ++ [t], h.addLeaf hl⟩
  | none =>
      cases ht : t.tag? with
      | none =>
          rw [Token.leaf?, ht] at hl
          exact absurd hl (Option.some_ne_none _)
      | some tag =>
          rw [Token.leaf?, ht] at hl
          cases tag with
          | openIf condition =>
              rw [Assembly.step_openIf ht]
              exact ⟨us ++ (vs ++ [t]), [], h.openBlock (.conditional condition) ht⟩
          | openEach path =>
              rw [Assembly.step_openEach ht]
              exact ⟨us ++ (vs ++ [t]), [], h.openBlock (.loop path) ht⟩
          | otherwise =>
              rw [Assembly.step_otherwise ht]
              exact h.divide ht
          | closeIf =>
              rw [Assembly.step_closeIf ht]
              exact h.closeBlock ht rfl
          | closeEach =>
              rw [Assembly.step_closeEach ht]
              exact h.closeBlock ht rfl
          | _ => exact absurd hl (Option.some_ne_none _)

/-- Every run is explained by the state it ends in. -/
theorem run {a : Assembly} (h : Explains ts us vs a) (xs : List Token) :
    ∃ us' vs', Explains (ts ++ xs) us' vs' (a.run xs) := by
  induction xs generalizing ts us vs a with
  | nil =>
      rw [List.append_nil]
      exact ⟨us, vs, h⟩
  | cons x xs ih =>
      obtain ⟨us', vs', h'⟩ := h.step x
      rw [Assembly.run_cons, List.append_cons]
      exact ih h'

/-- Giving up all open blocks leaves the tree, explained on its own. -/
theorem complete {a : Assembly} (h : Explains ts us vs a) :
    ∃ xs, Settles ts xs ∧ Derives xs a.complete.nodes ∧ (a.complete.warnings = [] → xs = ts) := by
  have hstate : Explains ts us vs ⟨a.blocks, a.draft⟩ := h
  obtain ⟨us', vs', h'⟩ := hstate.unwind fun _ => false
  -- no block is left, so the explanation is the innermost sequence
  obtain ⟨hopens, hderives, hsettles, hclean⟩ := h'
  rw [Assembly.blocks_unwind_all] at hopens
  cases hopens with
  | nil => exact ⟨vs', hsettles, hderives, hclean⟩

end Explains

namespace Template

/-- Every tree is the derivation of its tokens with some block tags settled as text, and where
    nothing is reported nothing is settled. -/
theorem draft_settles (ts : List Token) :
    ∃ us, Settles ts us ∧ Derives us (draft ts).nodes ∧ ((draft ts).warnings = [] → us = ts) := by
  have hstart : Explains [] [] [] .start := ⟨.nil, .nil, .nil, fun _ => rfl⟩
  obtain ⟨us, vs, h⟩ := hstart.run ts
  exact h.complete

/-- A template is reported as unbalanced exactly when its tokens do not derive from the grammar,
    and otherwise its tree is the one derivation that they have, up to the numbers of its nodes. -/
theorem compile_accepts_iff_derives (source : Text) :
    ((compile source).warnings = [] ↔ ∃ ns, Derives (Token.ofText source) ns) ∧
      ∀ ns, Derives (Token.ofText source) ns ↔
        (compile source).warnings = [] ∧
          unnumberedAll (compile source).nodes = unnumberedAll ns := by
  obtain ⟨us, -, hderives, hclean⟩ := draft_settles (Token.ofText source)
  -- without a report the settled tokens are the tokens themselves
  have hself : (compile source).warnings = [] →
      Derives (Token.ofText source) (compile source).nodes := by
    intro hw
    rw [← hclean hw]
    exact hderives
  refine ⟨⟨fun hw => ⟨_, hself hw⟩, ?_⟩, fun ns => ⟨draft_of_derives, ?_⟩⟩
  · rintro ⟨ns, h⟩
    exact (draft_of_derives h).1
  · rintro ⟨hw, hn⟩
    exact (hself hw).renumber hn

end Template

end PagePress
