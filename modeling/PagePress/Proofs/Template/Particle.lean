/-
  PagePress.Proofs.Template.Particle

  A variable with a particle behind it.

  The value of a variable and the particle reference behind it give what the
  value with the particle attached to it is (`Renderer.evaluate_attached`),
  also where the spec is malformed: then the reference gives nothing but a
  warning, and attaching gives the word alone.  Which form of the particle is
  chosen depends on the last scalar of the word only
  (`Particle.attachSpec_pair`).
-/

import PagePress.Proofs.Template.Classify
import PagePress.Proofs.Template.Row

namespace PagePress

/-! ## Syllables -/

/-- The syllables with a final consonant, by their number and that of their final. -/
theorem closesSyllable_iff (c : Char) : closesSyllable c = true ↔
    ∃ k t, c.toNat = 0xAC00 + 28 * k + t ∧ k < 399 ∧ 0 < t ∧ t < 28 := by
  rw [closesSyllable, Bool.and_eq_true, Bool.and_eq_true, decide_eq_true_iff, decide_eq_true_iff,
    bne_iff_ne, firstSyllable, lastSyllable, finalCount]
  constructor
  · -- the run of a syllable and its place there are a quotient and its remainder
    rintro ⟨⟨hfirst, hlast⟩, hfinal⟩
    refine ⟨(c.toNat - 0xAC00) / 28, (c.toNat - 0xAC00) % 28, ?_⟩
    omega
  · rintro ⟨k, t, hc, hk, hpos, ht⟩
    omega

/-- The last scalar of a word is a syllable with a final consonant. -/
def EndsInFinal (word : Text) : Prop :=
  ∃ front c, word = front ++ [c] ∧
    ∃ k t, c.toNat = 0xAC00 + 28 * k + t ∧ k < 399 ∧ 0 < t ∧ t < 28

theorem hasBatchim_iff (word : Text) : hasBatchim word = true ↔ EndsInFinal word := by
  rw [hasBatchim, Option.any_eq_true]
  simp only [closesSyllable_iff, List.getLast?_eq_some_iff]
  constructor
  · rintro ⟨c, ⟨front, hword⟩, hc⟩
    exact ⟨front, c, hword, hc⟩
  · rintro ⟨front, c, hword, hc⟩
    exact ⟨c, ⟨front, hword⟩, hc⟩

/-! ## Specs -/

namespace Particle

variable {spec a b : Text}

theorem parse?_eq_some_iff {p : Particle} : parse? spec = some p ↔
    spec = p.afterBatchim ++ '/' :: p.afterVowel ∧ '/' ∉ p.afterBatchim ∧ '/' ∉ p.afterVowel := by
  obtain ⟨a, b⟩ := p
  rw [← Text.splitOn_eq_pair_iff, parse?]
  split
  · next a' b' hpair =>
      rw [hpair, Option.some.injEq, Particle.mk.injEq, List.cons.injEq, List.cons.injEq,
        and_iff_left rfl]
  · next hpair =>
      exact ⟨fun h => absurd h.symm (Option.some_ne_none _), fun h => absurd h (hpair a b)⟩

/-- A spec reads exactly if it holds one slash. -/
theorem parse?_isSome : (parse? spec).isSome ↔ spec.count '/' = 1 := by
  have hlength := Text.length_splitOn '/' spec
  rw [parse?]
  split
  · next a b hpair =>
      rw [hpair] at hlength
      exact iff_of_true rfl (Nat.succ.inj hlength).symm
  · next hpair =>
      refine iff_of_false Bool.false_ne_true fun hcount => ?_
      rw [hcount] at hlength
      obtain ⟨a, b, hab⟩ := List.length_eq_two.1 hlength
      exact hpair a b hab

theorem attachSpec_malformed (word : Text) (h : spec.count '/' ≠ 1) :
    attachSpec word spec = word := by
  have hnone : parse? spec = none := by
    rw [← Option.not_isSome_iff_eq_none, parse?_isSome]
    exact h
  rw [attachSpec, attachSpec?, hnone]
  rfl

theorem attachSpec_of_parse? {p : Particle} (h : parse? spec = some p) (word : Text) :
    attachSpec word spec = word ++ p.formFor word := by
  rw [attachSpec, attachSpec?, h]
  rfl

/-- Words that end in a final consonant take the first form, all others the second. -/
theorem attachSpec_pair (word : Text) (ha : '/' ∉ a) (hb : '/' ∉ b) :
    (EndsInFinal word → attachSpec word (a ++ '/' :: b) = word ++ a) ∧
      (¬ EndsInFinal word → attachSpec word (a ++ '/' :: b) = word ++ b) := by
  have hparse : parse? (a ++ '/' :: b) = some ⟨a, b⟩ := parse?_eq_some_iff.2 ⟨rfl, ha, hb⟩
  rw [attachSpec_of_parse? hparse, formFor, ← hasBatchim_iff]
  exact ⟨fun h => by rw [if_pos h], fun h => by rw [if_neg h]⟩

end Particle

/-! ## References -/

/-- The reference to the particle of a spec for the value of a variable. -/
def Particle.reference (path : VarPath) (spec : Text) : Text :=
  braced ("josa " ++ path.display ++ " '" ++ spec ++ "'")

namespace WrittenLeaf

/-- The tag of a variable. -/
def ofPath (path : VarPath) (h : path.StandsAlone) : WrittenLeaf where
  body := path.display
  leaf := .variable path
  enclosed := .of_not_mem path.braceless_display.1 path.braceless_display.2
  leaf?_classify := by
    rw [Tag.classify_display h]
    rfl

/-- The tag of a particle. -/
def ofSpec (path : VarPath) (spec : Text) (hquote : '\'' ∉ spec)
    (hopen : Text.Unpaired '{' spec) (hclose : Text.Unpaired '}' spec) : WrittenLeaf where
  body := Tag.written (Tag.particleArguments path spec)
  leaf := .particle path spec
  enclosed := Tag.enclosed_written (List.forall_mem_cons.2 ⟨⟨by decide, by decide⟩,
    List.forall_mem_cons.2 ⟨path.braceless_display, List.forall_mem_singleton.2 ⟨hopen, hclose⟩⟩⟩)
  leaf?_classify := by
    rw [Tag.classify_particle path hquote]
    rfl

end WrittenLeaf

namespace Renderer

/-- A particle reference gives what attaching adds to the word. -/
theorem evalParticle_attachSpec {c : Context} {path : VarPath} {word : Text}
    (h : c.textOf? path = some word) (raw spec : Text) :
    word ++ (evalParticle .verbatim c raw path spec).text = Particle.attachSpec word spec ∧
      (evalParticle .verbatim c raw path spec).warnings =
        if spec.count '/' = 1 then [] else [.malformedSpec spec raw] := by
  rw [evalParticle, h]
  cases hparse : Particle.parse? spec with
  | none =>
      -- the reference gives no text, and attaching adds none
      have hcount : spec.count '/' ≠ 1 := by
        rw [ne_eq, ← Particle.parse?_isSome, hparse]
        exact Bool.false_ne_true
      rw [if_neg hcount, Particle.attachSpec_malformed word hcount]
      exact ⟨List.append_nil word, rfl⟩
  | some p =>
      have hcount : spec.count '/' = 1 := Particle.parse?_isSome.1 (by rw [hparse]; rfl)
      rw [if_pos hcount, Particle.attachSpec_of_parse? hparse]
      exact ⟨rfl, rfl⟩

/-- A variable and the particle reference behind it are evaluated one after the other. -/
theorem evaluate_reference (r : Renderer) {c : Context} {path : VarPath}
    (hpath : path.StandsAlone) {word spec : Text} (hword : c.textOf? path = some word)
    (hquote : '\'' ∉ spec) (hopen : Text.Unpaired '{' spec) (hclose : Text.Unpaired '}' spec) :
    r.evaluate .verbatim c (.compile (braced path.display ++ Particle.reference path spec)) =
      .ofText word ++ evalParticle .verbatim c (Particle.reference path spec) path spec := by
  have hbody := Tag.written_particleArguments path spec
  have hsource : braced path.display ++ Particle.reference path spec = WrittenLeaf.source
      [.ofPath path hpath, .ofSpec path spec hquote hopen hclose] := by
    rw [Particle.reference, ← hbody]
    exact congrArg (braced path.display ++ ·) (List.append_nil _).symm
  have hvariable (expand? : Option Expansion) (raw : Text) :
      r.evalLeaf expand? .verbatim c raw (.variable path) = .ofText word := by
    rw [evalLeaf, hword]
    rfl
  have hparticle (expand? : Option Expansion) (raw : Text) :
      r.evalLeaf expand? .verbatim c raw (.particle path spec) =
        evalParticle .verbatim c raw path spec := by
    rw [evalLeaf]
  rw [hsource, evaluate_row]
  show r.evalLeaf _ _ c _ (.variable path) ++ (r.evalLeaf _ _ c
    (braced (Tag.written (Tag.particleArguments path spec))) (.particle path spec) ++ .empty) = _
  rw [hvariable, hparticle, Output.append_empty, hbody]
  rfl

/-- A variable and the particle reference behind it give the word with the particle attached to it,
    and a warning exactly if the spec does not hold one slash.  Attached to a malformed spec, a word
    stays alone; otherwise the first form goes to words that end in a final consonant and the second
    to all others, the empty word among them. -/
theorem evaluate_attached (r : Renderer) {c : Context} {path : VarPath} (hpath : path.StandsAlone)
    {word spec : Text} (hword : c.textOf? path = some word) (hquote : '\'' ∉ spec)
    (hopen : ¬ ['{', '{'] <:+: spec) (hclose : ¬ ['}', '}'] <:+: spec) :
    let o := r.evaluate .verbatim c
      (.compile (braced path.display ++ Particle.reference path spec))
    o.text = Particle.attachSpec word spec ∧
      o.warnings = (if spec.count '/' = 1 then []
        else [.malformedSpec spec (Particle.reference path spec)]) ∧
      o.warnings.map Warning.code = (if spec.count '/' = 1 then [] else ["L-1-1".toList]) ∧
      (spec.count '/' ≠ 1 → Particle.attachSpec word spec = word) ∧
      ∀ a b, spec = a ++ '/' :: b → '/' ∉ a → '/' ∉ b →
        (EndsInFinal word → Particle.attachSpec word spec = word ++ a) ∧
          (¬ EndsInFinal word → Particle.attachSpec word spec = word ++ b) := by
  intro o
  obtain ⟨htext, hwarnings⟩ :=
    evalParticle_attachSpec hword (Particle.reference path spec) spec
  have ho : o = .ofText word ++
      evalParticle .verbatim c (Particle.reference path spec) path spec :=
    r.evaluate_reference hpath hword hquote (Text.unpaired_iff.2 hopen)
      (Text.unpaired_iff.2 hclose)
  have hwarnings' : o.warnings = if spec.count '/' = 1 then []
      else [.malformedSpec spec (Particle.reference path spec)] := by
    rw [ho, Output.warnings_append, hwarnings]
    rfl
  refine ⟨?_, hwarnings', ?_, Particle.attachSpec_malformed word, ?_⟩
  · rw [ho, Output.text_append]
    exact htext
  · rw [hwarnings']
    split <;> rfl
  · rintro a b rfl ha hb
    exact Particle.attachSpec_pair word ha hb

/-- A word with a final consonant before the particle of an object, and the empty word before a
    spec without a slash. -/
theorem evaluate_attached_object :
    let r : Renderer := ⟨{}, 0, defaultDepthLimit⟩
    let path : VarPath := ⟨[['x']], by decide⟩
    let c (word : Text) : Context := Context.empty.insert ['x'] (.text word)
    let o (word spec : Text) : Output := r.evaluate .verbatim (c word)
      (.compile (braced path.display ++ Particle.reference path spec))
    path.StandsAlone ∧ (∀ word, (c word).textOf? path = some word) ∧
      (o "밥" "을/를").text = "밥을" ∧ (o "밥" "을/를").warnings = [] ∧
      (o [] "을").text = [] ∧
      (o [] "을").warnings = [.malformedSpec "을" (Particle.reference path "을")] := by
  intro r path c o
  have hpath : path.StandsAlone := by decide
  have hword (word : Text) : (c word).textOf? path = some word := rfl
  have hplain {brace : Char} {spec : Text} (h : brace ∉ spec) : ¬ [brace, brace] <:+: spec :=
    Text.unpaired_iff.1 (Text.unpaired_of_not_mem h)
  obtain ⟨htext, hwarnings, -, -, hforms⟩ := r.evaluate_attached hpath (hword "밥")
    (by decide : '\'' ∉ "을/를".toList) (hplain (by decide)) (hplain (by decide))
  obtain ⟨htext', hwarnings', -, halone, -⟩ := r.evaluate_attached hpath (hword [])
    (by decide : '\'' ∉ "을".toList) (hplain (by decide)) (hplain (by decide))
  have hfinal : EndsInFinal "밥" := (hasBatchim_iff _).1 (by decide)
  have hattached := (hforms "을" "를" rfl (by decide) (by decide)).1 hfinal
  exact ⟨hpath, hword, htext.trans hattached, hwarnings, htext'.trans (halone (by decide)),
    hwarnings'⟩

end Renderer

end PagePress
