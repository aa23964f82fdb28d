/-
  PagePress.Proofs.Text.Split

  Splitting text at a separator.

  There is one part more than there are separators (`Text.length_splitOn`).
  Parts that were found give the text when they are joined
  (`Text.intercalate_splitOn`), and parts without the separator that were
  joined by it are found again (`Text.splitOn_intercalate`).
-/

import PagePress.Text.Basic

namespace PagePress.Text

variable {sep : Char} {t a b : Text}

/-- There is one part more than there are separators. -/
theorem length_splitOn (sep : Char) (t : Text) : (splitOn sep t).length = t.count sep + 1 := by
  induction t with
  | nil => rfl
  | cons c t ih =>
      rw [splitOn]
      split
      · next h => rw [h, List.length_cons, ih, List.count_cons_self]
      · next h =>
          rw [List.count_cons_of_ne h, ← ih]
          split
          · next hnil =>
              rw [hnil] at ih
              exact absurd ih.symm (Nat.succ_ne_zero _)
          · next hcons => rw [hcons, List.length_cons, List.length_cons]

theorem splitOn_ne_nil (sep : Char) (t : Text) : splitOn sep t ≠ [] := by
  intro h
  have hlength := length_splitOn sep t
  rw [h] at hlength
  exact absurd hlength.symm (Nat.succ_ne_zero _)

theorem splitOn_eq_listSplitOn (sep : Char) (t : Text) : splitOn sep t = List.splitOn sep t := by
  induction t with
  | nil => rfl
  | cons c t ih =>
      rw [List.splitOn, List.splitOnP_cons_eq_if_modifyHead, ← List.splitOn, ← ih, splitOn]
      by_cases h : c = sep
      · rw [if_pos h, if_pos (beq_iff_eq.2 h)]
      · rw [if_neg h, if_neg fun heq => h (beq_iff_eq.1 heq)]
        cases hparts : splitOn sep t with
        | nil => exact absurd hparts (splitOn_ne_nil sep t)
        | cons part parts => rfl

theorem intercalate_splitOn (sep : Char) (t : Text) : [sep].intercalate (splitOn sep t) = t := by
  rw [splitOn_eq_listSplitOn, List.intercalate_splitOn]

theorem splitOn_intercalate {parts : List Text} (h : ∀ part ∈ parts, sep ∉ part)
    (hne : parts ≠ []) : splitOn sep ([sep].intercalate parts) = parts := by
  rw [splitOn_eq_listSplitOn, List.splitOn_intercalate sep h hne]

/-- A character that does not separate stands in one of the parts. -/
theorem exists_mem_splitOn {c : Char} (h : c ∈ t) (hc : c ≠ sep) :
    ∃ part ∈ splitOn sep t, c ∈ part := by
  fun_induction splitOn sep t with
  | case1 => exact absurd h List.not_mem_nil
  | case2 t ih =>
      obtain ⟨part, hpart, hmem⟩ := ih (List.mem_of_ne_of_mem hc h)
      exact ⟨part, List.mem_cons_of_mem _ hpart, hmem⟩
  | case3 d t hd hnil ih =>
      rcases List.mem_cons.1 h with rfl | h
      · exact ⟨_, List.mem_cons_self, List.mem_cons_self⟩
      · obtain ⟨part, hpart, -⟩ := ih h
        rw [hnil] at hpart
        exact absurd hpart List.not_mem_nil
  | case4 d t hd first parts hcons ih =>
      rcases List.mem_cons.1 h with rfl | h
      · exact ⟨_, List.mem_cons_self, List.mem_cons_self⟩
      · obtain ⟨part, hpart, hmem⟩ := ih h
        rw [hcons] at hpart
        rcases List.mem_cons.1 hpart with rfl | hpart
        · exact ⟨_, List.mem_cons_self, List.mem_cons_of_mem _ hmem⟩
        · exact ⟨part, List.mem_cons_of_mem _ hpart, hmem⟩

/-- There are two parts exactly around a single separator. -/
theorem splitOn_eq_pair_iff :
    splitOn sep t = [a, b] ↔ t = a ++ sep :: b ∧ sep ∉ a ∧ sep ∉ b := by
  have hjoin : [sep].intercalate [a, b] = a ++ sep :: b := by
    rw [List.intercalate_cons_cons, List.intercalate_singleton, List.append_assoc,
      List.singleton_append]
  constructor
  · intro h
    have ht : t = a ++ sep :: b := by rw [← hjoin, ← h, intercalate_splitOn]
    have hcount := length_splitOn sep t
    rw [h, ht, List.count_append, List.count_cons_self] at hcount
    simp only [List.length_cons, List.length_nil] at hcount
    exact ⟨ht, List.count_eq_zero.1 (by omega), List.count_eq_zero.1 (by omega)⟩
  · rintro ⟨rfl, ha, hb⟩
    have hparts : ∀ part ∈ [a, b], sep ∉ part :=
      List.forall_mem_cons.2 ⟨ha, List.forall_mem_singleton.2 hb⟩
    rw [← hjoin, splitOn_intercalate hparts (List.cons_ne_nil a [b])]

end PagePress.Text
