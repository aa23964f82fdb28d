/-
  PagePress.Proofs.Pattern.Selection

  The choice of a pattern.

  A word is folded into a seed scalar by scalar: the hash is multiplied by 31
  and the scalar added, modulo 2 ^ 32.  As 31 is odd, each step can be undone
  (`hashStep_bijective`), so every hash belongs to exactly one seed, whatever
  the word.  Libraries are only loaded if no section is empty; hence in every
  section a pattern is chosen, and every pattern is chosen for some seed
  (`PatternLibrary.Loaded.select?_covers`).
-/

import Mathlib.Algebra.BigOperators.Fin
import Mathlib.Data.Nat.ModEq
import Mathlib.Tactic.Ring
import PagePress.Pattern.Load

namespace PagePress

/-! ## Hash -/

/-- The inverse of 31 modulo 2 ^ 32. -/
def hashInverse : UInt32 := 3186588639

theorem mul_hashInverse : 31 * hashInverse = 1 := by decide

/-- A scalar that was folded into a hash can be taken out again. -/
theorem hashStep_bijective (c : Char) :
    Function.Bijective fun hash : UInt32 => hash * 31 + c.val := by
  refine Function.bijective_iff_has_inverse.2
    ⟨fun hash => (hash - c.val) * hashInverse, fun hash => ?_, fun hash => ?_⟩
  · show (hash * 31 + c.val - c.val) * hashInverse = hash
    rw [UInt32.add_sub_cancel, UInt32.mul_assoc, mul_hashInverse, UInt32.mul_one]
  · show (hash - c.val) * hashInverse * 31 + c.val = hash
    rw [UInt32.mul_assoc, UInt32.mul_comm hashInverse, mul_hashInverse, UInt32.mul_one,
      UInt32.sub_add_cancel]

theorem selectionHash_cons (seed : UInt32) (c : Char) (cs : Text) :
    selectionHash seed (some (c :: cs)) = selectionHash (seed * 31 + c.val) (some cs) := rfl

theorem selectionHash_getD (seed : UInt32) (word : Option Text) :
    selectionHash seed (some (word.getD [])) = selectionHash seed word := rfl

/-- Every hash belongs to exactly one seed. -/
theorem selectionHash_bijective (word : Option Text) :
    Function.Bijective fun seed => selectionHash seed word := by
  simp only [← selectionHash_getD _ word]
  induction word.getD [] with
  | nil => exact Function.bijective_id
  | cons c cs ih => exact ih.comp (hashStep_bijective c)

/-- The first scalar of a word has the highest power of 31, and the others keep theirs. -/
theorem sum_powers_cons (c : Char) (cs : Text) :
    ∑ i : Fin (c :: cs).length, ((c :: cs).get i).toNat * 31 ^ ((c :: cs).length - 1 - i) =
      c.toNat * 31 ^ cs.length +
        ∑ i : Fin cs.length, (cs.get i).toNat * 31 ^ (cs.length - 1 - i) := by
  refine (Fin.sum_univ_succ _).trans (congrArg₂ _ rfl ?_)
  apply Finset.sum_congr rfl
  intro i _
  have hpower : (c :: cs).length - 1 - (i.succ : Nat) = cs.length - 1 - i := by
    simp only [List.length_cons, Fin.val_succ]
    omega
  rw [hpower]
  rfl

/-- The hash is the word read as a number in base 31, on top of the seed. -/
theorem selectionHash_toNat (seed : UInt32) (word : Text) :
    (selectionHash seed (some word)).toNat = (seed.toNat * 31 ^ word.length +
      ∑ i : Fin word.length, (word.get i).toNat * 31 ^ (word.length - 1 - i)) % 2 ^ 32 := by
  -- the seed of the rest of the word is the hash of the first scalar
  induction word generalizing seed with
  | nil => simp [selectionHash, Nat.mod_eq_of_lt seed.toNat_lt]
  | cons c cs ih =>
      have hstep : (seed * 31 + c.val).toNat ≡ seed.toNat * 31 + c.toNat [MOD 2 ^ 32] := by
        rw [UInt32.toNat_add, UInt32.toNat_mul]
        exact (Nat.mod_modEq _ _).trans ((Nat.mod_modEq _ _).add_right _)
      rw [selectionHash_cons, ih, sum_powers_cons]
      calc _ ≡ (seed.toNat * 31 + c.toNat) * 31 ^ cs.length +
            ∑ i : Fin cs.length, (cs.get i).toNat * 31 ^ (cs.length - 1 - i) [MOD 2 ^ 32] :=
            (hstep.mul_right _).add_right _
        _ = _ := by rw [List.length_cons]; ring

/-! ## Index -/

theorem selectIndex?_eq_some {seed : UInt32} {word : Option Text} {count index : Nat} :
    selectIndex? seed word count = some index ↔
      count ≠ 0 ∧ (selectionHash seed word).toNat % count = index := by
  rw [selectIndex?]
  split
  · next h => simp [h]
  · next h => simp [h]

/-- Every index of so many candidates is chosen for some seed. -/
theorem exists_selectIndex?_eq (word : Option Text) {count index : Nat} (h : index < count)
    (hcount : count ≤ 2 ^ 32) : ∃ seed, selectIndex? seed word count = some index := by
  -- the seed whose hash is the index itself
  obtain ⟨seed, hseed⟩ := (selectionHash_bijective word).2 (UInt32.ofNat index)
  have hhash : (selectionHash seed word).toNat = index := by
    refine (congrArg UInt32.toNat hseed).trans ?_
    apply UInt32.toNat_ofNat_of_lt'
    exact Nat.lt_of_lt_of_le h hcount
  refine ⟨seed, selectIndex?_eq_some.2 ⟨Nat.ne_zero_of_lt h, ?_⟩⟩
  rw [hhash, Nat.mod_eq_of_lt h]

/-! ## Pools -/

theorem Dictionary.mem_of_lookup {α : Type} {name : Text} {es : List (Text × α)} {x : α}
    (h : es.lookup name = some x) : (name, x) ∈ es := by
  obtain ⟨front, back, rfl, -⟩ := List.lookup_eq_some_iff.1 h
  exact List.mem_append_right front List.mem_cons_self

theorem Dictionary.mem_keys_iff {α : Type} {name : Text} {es : List (Text × α)} :
    name ∈ es.map (·.1) ↔ ∃ x, es.lookup name = some x := by
  rw [← Option.isSome_iff_exists, List.lookup_isSome_iff, List.mem_map]
  exact exists_congr fun p => and_congr_right fun _ => by rw [beq_iff_eq, eq_comm]

namespace PatternLibrary

variable {l : PatternLibrary} {seed : UInt32} {category sect t : Text} {word : Option Text}
  {pool : List Text}

/-- The sections of a category are those that have patterns to choose from. -/
theorem mem_sections_iff : sect ∈ l.sections category ↔ ∃ pool, l.pool? category sect = some pool := by
  rw [sections, pool?, Dictionary.mem_keys_iff]
  cases l.categories.lookup category with
  | none => simp
  | some pools => rfl

theorem pool_ne_nil (hl : l.emptyPool? = none) (hpool : l.pool? category sect = some pool) :
    pool ≠ [] := by
  obtain ⟨pools, hpools, hpool⟩ := Option.bind_eq_some_iff.1 hpool
  have hnone := List.findSome?_eq_none_iff.1 hl _ (Dictionary.mem_of_lookup hpools)
  rw [Option.map_eq_none_iff, List.find?_eq_none] at hnone
  simpa using hnone _ (Dictionary.mem_of_lookup hpool)

theorem select?_eq_some : l.select? seed category sect word = some t ↔
    ∃ pool, l.pool? category sect = some pool ∧
      ∃ index, selectIndex? seed word pool.length = some index ∧ pool[index]? = some t := by
  rw [select?]
  exact Option.bind_eq_some_iff.trans
    (exists_congr fun pool => and_congr_right fun _ => Option.bind_eq_some_iff)

/-- Exactly in the sections of a library without empty ones a pattern is chosen. -/
theorem select?_isSome (hl : l.emptyPool? = none) :
    (l.select? seed category sect word).isSome ↔ sect ∈ l.sections category := by
  rw [mem_sections_iff, Option.isSome_iff_exists]
  constructor
  · rintro ⟨t, ht⟩
    obtain ⟨pool, hpool, -⟩ := select?_eq_some.1 ht
    exact ⟨pool, hpool⟩
  · rintro ⟨pool, hpool⟩
    have hlength : 0 < pool.length := List.length_pos_of_ne_nil (pool_ne_nil hl hpool)
    have hindex := Nat.mod_lt (selectionHash seed word).toNat hlength
    exact ⟨_, select?_eq_some.2 ⟨pool, hpool, _,
      selectIndex?_eq_some.2 ⟨hlength.ne', rfl⟩, List.getElem?_eq_getElem hindex⟩⟩

theorem mem_pool_of_select? (h : l.select? seed category sect word = some t) :
    ∃ pool, l.pool? category sect = some pool ∧ t ∈ pool := by
  obtain ⟨pool, hpool, index, -, hget⟩ := select?_eq_some.1 h
  exact ⟨pool, hpool, List.mem_of_getElem? hget⟩

/-- Every pattern is chosen for some seed. -/
theorem exists_select?_eq (word : Option Text) (hpool : l.pool? category sect = some pool)
    (hlength : pool.length ≤ 2 ^ 32) (ht : t ∈ pool) :
    ∃ seed, l.select? seed category sect word = some t := by
  obtain ⟨index, hindex, rfl⟩ := List.mem_iff_getElem.1 ht
  obtain ⟨seed, hseed⟩ := exists_selectIndex?_eq word hindex hlength
  exact ⟨seed, select?_eq_some.2 ⟨pool, hpool, index, hseed, List.getElem?_eq_getElem hindex⟩⟩

/-! ## Loaded libraries -/

/-- A library that a loader has accepted. -/
inductive Loaded (l : PatternLibrary) : Prop where
  | ofCategories {version : Text} {categories : List (Text × List (Text × List Text))}
      (h : PatternLibrary.ofCategories version categories = .ok l)
  | ofJsonText {source : Text} (h : PatternLibrary.ofJsonText source = .ok l)
  | ofTomlText {source : Text} (h : PatternLibrary.ofTomlText source = .ok l)

theorem emptyPool?_of_checked {l' : PatternLibrary} (h : l'.checked = .ok l) :
    l.emptyPool? = none := by
  rw [checked] at h
  split at h
  · cases h
  · next hnone =>
      cases h
      exact hnone

/-- No loader accepts a library with an empty section. -/
theorem Loaded.emptyPool?_eq_none (hl : l.Loaded) : l.emptyPool? = none := by
  cases hl with
  | ofCategories h => exact emptyPool?_of_checked h
  | ofJsonText h =>
      rw [PatternLibrary.ofJsonText] at h
      split at h
      · exact emptyPool?_of_checked h
      · cases h
  | ofTomlText h =>
      rw [PatternLibrary.ofTomlText] at h
      split at h
      · exact emptyPool?_of_checked h
      · cases h

/-- In a loaded library a pattern is chosen exactly in the sections that there are, and it is one
    of the section.  The hash that it is chosen by is the word in base 31 on top of the seed, and
    every hash belongs to exactly one seed.  So, whatever the word, no pattern of a section is left
    out for all seeds. -/
theorem Loaded.select?_covers (hl : l.Loaded) (category sect : Text) (word : Option Text) :
    (∀ seed, ((l.select? seed category sect word).isSome ↔ sect ∈ l.sections category) ∧
      ∀ t, l.select? seed category sect word = some t →
        ∃ pool, l.pool? category sect = some pool ∧ t ∈ pool) ∧
    (∀ seed (cs : Text), (selectionHash seed (some cs)).toNat = (seed.toNat * 31 ^ cs.length +
      ∑ i : Fin cs.length, (cs.get i).toNat * 31 ^ (cs.length - 1 - i)) % 2 ^ 32) ∧
    (∀ seed, selectionHash seed none = seed) ∧
    (Function.Bijective fun seed => selectionHash seed word) ∧
    ∀ pool, l.pool? category sect = some pool → pool.length ≤ 2 ^ 32 →
      ∀ t ∈ pool, ∃ seed, l.select? seed category sect word = some t := by
  have hpools : l.emptyPool? = none := hl.emptyPool?_eq_none
  refine ⟨?_, selectionHash_toNat, fun _ => rfl, selectionHash_bijective word, ?_⟩
  · intro seed
    exact ⟨select?_isSome hpools, fun t => mem_pool_of_select?⟩
  · intro pool hpool hlength t ht
    exact exists_select?_eq word hpool hlength ht

/-- Two greetings, and the word that they are chosen by. -/
theorem Loaded.select?_covers_greeting :
    let greetings : List Text := ["hello", "good day"]
    let l : PatternLibrary := ⟨"1", [("page", [("greeting", greetings)])]⟩
    l.Loaded ∧ (l.select? 7 "page" "greeting" (some "ab")).isSome ∧
      ¬ (l.select? 7 "page" "farewell" (some "ab")).isSome ∧
      (selectionHash 4294967295 (some "ab")).toNat =
        ((4294967295 * 31 ^ 2 + (97 * 31 + 98)) % 2 ^ 32) ∧
      ∀ t ∈ greetings, ∃ seed, l.select? seed "page" "greeting" (some "ab") = some t := by
  intro greetings l
  have hl : l.Loaded := .ofCategories (rfl : PatternLibrary.ofCategories "1" l.categories = .ok l)
  have hpool : l.pool? "page" "greeting" = some greetings := by decide
  obtain ⟨htotal, hhash, -, -, hcover⟩ := hl.select?_covers "page" "greeting" (some "ab")
  refine ⟨hl, (htotal 7).1.2 (by decide), fun h => ?_, ?_, hcover greetings hpool (by decide)⟩
  · exact absurd (((hl.select?_covers "page" "farewell" (some "ab")).1 7).1.1 h) (by decide)
  · rw [hhash]
    decide

end PatternLibrary

end PagePress
