/-
  PagePress.Proofs.Json.Document

  Reading back a written document.

  A document is written as a sequence of lexemes (`lexemes?_write`), and the
  reader that takes these lexemes ends with the document (`runs_value`).
  Numbers are left out: how a number is read depends on what follows it.
-/

import PagePress.Json.Reader
import PagePress.Proofs.Json.Quoted

namespace PagePress.Json

/-! ## Documents and their lexemes -/

mutual

/-- Whether a document holds no number. -/
def isNumberless : Json → Bool
  | .number _ => false
  | .array items => allNumberless items
  | .object members => membersNumberless members
  | _ => true

/-- Whether some documents hold no number. -/
def allNumberless : List Json → Bool
  | [] => true
  | v :: vs => v.isNumberless && allNumberless vs

/-- Whether some members hold no number. -/
def membersNumberless : List (Text × Json) → Bool
  | [] => true
  | (_, v) :: ms => v.isNumberless && membersNumberless ms

end

mutual

/-- How many arrays and objects stand inside each other in a document. -/
def depth : Json → Nat
  | .array items => itemsDepth items + 1
  | .object members => membersDepth members + 1
  | _ => 0

/-- The depth of the deepest of some documents. -/
def itemsDepth : List Json → Nat
  | [] => 0
  | v :: vs => max v.depth (itemsDepth vs)

/-- The depth of the deepest of some members. -/
def membersDepth : List (Text × Json) → Nat
  | [] => 0
  | (_, v) :: ms => max v.depth (membersDepth ms)

end

mutual

/-- The lexemes that a document is written with. -/
def lexemes : Json → List Lexeme
  | .null => [.null]
  | .bool b => [.bool b]
  | .number n => [.number n]
  | .string t => [.string t]
  | .array items => .openArray :: (itemLexemes items ++ [.closeArray])
  | .object members => .openObject :: (memberLexemes members ++ [.closeObject])

/-- The lexemes of array elements with commas between them. -/
def itemLexemes : List Json → List Lexeme
  | [] => []
  | [v] => v.lexemes
  | v :: vs => v.lexemes ++ .comma :: itemLexemes vs

/-- The lexemes of object members with commas between them. -/
def memberLexemes : List (Text × Json) → List Lexeme
  | [] => []
  | [(k, v)] => .string k :: .colon :: v.lexemes
  | (k, v) :: ms => .string k :: .colon :: (v.lexemes ++ .comma :: memberLexemes ms)

end

theorem allNumberless_iff {vs : List Json} :
    allNumberless vs = true ↔ ∀ v ∈ vs, v.isNumberless = true := by
  induction vs with
  | nil => exact iff_of_true rfl nofun
  | cons v vs ih => rw [allNumberless, Bool.and_eq_true, ih, List.forall_mem_cons]

theorem membersNumberless_iff {ms : List (Text × Json)} :
    membersNumberless ms = true ↔ ∀ m ∈ ms, m.2.isNumberless = true := by
  induction ms with
  | nil => exact iff_of_true rfl nofun
  | cons m ms ih => rw [membersNumberless, Bool.and_eq_true, ih, List.forall_mem_cons]

theorem itemsDepth_le_iff {vs : List Json} {n : Nat} :
    itemsDepth vs ≤ n ↔ ∀ v ∈ vs, v.depth ≤ n := by
  induction vs with
  | nil => exact iff_of_true (Nat.zero_le n) nofun
  | cons v vs ih => rw [itemsDepth, Nat.max_le, ih, List.forall_mem_cons]

theorem membersDepth_le_iff {ms : List (Text × Json)} {n : Nat} :
    membersDepth ms ≤ n ↔ ∀ m ∈ ms, m.2.depth ≤ n := by
  induction ms with
  | nil => exact iff_of_true (Nat.zero_le n) nofun
  | cons m ms ih => rw [membersDepth, Nat.max_le, ih, List.forall_mem_cons]

mutual

/-- Only numbers can lack a value. -/
theorem hasValues_of_isNumberless (v : Json) (h : v.isNumberless = true) : v.hasValues = true := by
  cases v with
  | number n => exact absurd h Bool.false_ne_true
  | array items => exact allHaveValues_of_allNumberless items h
  | object members => exact membersHaveValues_of_membersNumberless members h
  | null => rfl
  | bool b => rfl
  | string t => rfl

theorem allHaveValues_of_allNumberless (vs : List Json) (h : allNumberless vs = true) :
    allHaveValues vs = true := by
  cases vs with
  | nil => rfl
  | cons v vs =>
      rw [allNumberless, Bool.and_eq_true] at h
      rw [allHaveValues, Bool.and_eq_true]
      exact ⟨hasValues_of_isNumberless v h.1, allHaveValues_of_allNumberless vs h.2⟩

theorem membersHaveValues_of_membersNumberless (ms : List (Text × Json))
    (h : membersNumberless ms = true) : membersHaveValues ms = true := by
  cases ms with
  | nil => rfl
  | cons m ms =>
      rw [membersNumberless, Bool.and_eq_true] at h
      rw [membersHaveValues, Bool.and_eq_true]
      exact ⟨hasValues_of_isNumberless m.2 h.1, membersHaveValues_of_membersNumberless ms h.2⟩

end

theorem writeItems_cons_cons (v w : Json) (vs : List Json) :
    writeItems (v :: w :: vs) = v.write ++ ',' :: writeItems (w :: vs) := rfl

theorem writeMembers_cons_cons (k : Text) (v : Json) (m : Text × Json)
    (ms : List (Text × Json)) :
    writeMembers ((k, v) :: m :: ms) =
      quote k ++ ':' :: (v.write ++ ',' :: writeMembers (m :: ms)) := rfl

theorem itemLexemes_cons_cons (v w : Json) (vs : List Json) :
    itemLexemes (v :: w :: vs) = v.lexemes ++ .comma :: itemLexemes (w :: vs) := rfl

theorem memberLexemes_cons_cons (k : Text) (v : Json) (m : Text × Json)
    (ms : List (Text × Json)) :
    memberLexemes ((k, v) :: m :: ms) =
      .string k :: .colon :: (v.lexemes ++ .comma :: memberLexemes (m :: ms)) := rfl

/-! ## From text to lexemes -/

/-- Without a gap at the start, the first lexeme is the one that the text starts with. -/
theorem lexemes?_cons {c : Char} {cs rest : Text} {l : Lexeme} (hc : isGap c = false)
    (h : lexeme? (c :: cs) = some (l, rest)) :
    lexemes? (c :: cs) = (lexemes? rest).map (l :: ·) := by
  have hd : (c :: cs).dropWhile isGap = c :: cs := by
    rw [List.dropWhile_cons, hc]
    rfl
  rw [lexemes?]
  split
  · rename_i h'
    rw [hd] at h'
    cases h'
  · rename_i c' cs' h'
    rw [hd] at h'
    cases h'
    split
    · rename_i h'
      rw [h] at h'
      cases h'
    · rename_i h'
      rw [h] at h'
      cases h'
      rfl

theorem lexemes?_quote (t rest : Text) :
    lexemes? (quote t ++ rest) = (lexemes? rest).map (.string t :: ·) := by
  have hs : string? (escape t ++ '"' :: rest) = some (.string t, rest) := by
    rw [string?, stringBody?_escape]
  rw [quote, List.cons_append, List.append_assoc]
  exact lexemes?_cons (by decide) hs

mutual

theorem lexemes?_write (v : Json) (hv : v.isNumberless = true) (rest : Text) :
    lexemes? (v.write ++ rest) = (lexemes? rest).map (v.lexemes ++ ·) := by
  cases v with
  | null => exact lexemes?_cons (by decide) rfl
  | bool b => cases b <;> exact lexemes?_cons (by decide) rfl
  | number n => cases hv
  | string t => exact lexemes?_quote t rest
  | array items =>
      have hi := lexemes?_writeItems items hv (']' :: rest)
      rw [write, List.cons_append, List.append_assoc, lexemes?_cons (by decide) rfl]
      rw [List.singleton_append, hi, lexemes?_cons (by decide) rfl]
      simp only [Option.map_map, lexemes, Function.comp_def, List.cons_append, List.append_assoc,
        List.nil_append]
  | object members =>
      have hm := lexemes?_writeMembers members hv ('}' :: rest)
      rw [write, List.cons_append, List.append_assoc, lexemes?_cons (by decide) rfl]
      rw [List.singleton_append, hm, lexemes?_cons (by decide) rfl]
      simp only [Option.map_map, lexemes, Function.comp_def, List.cons_append, List.append_assoc,
        List.nil_append]

theorem lexemes?_writeItems (vs : List Json) (hv : allNumberless vs = true) (rest : Text) :
    lexemes? (writeItems vs ++ rest) = (lexemes? rest).map (itemLexemes vs ++ ·) := by
  -- a comma stands only where a further element follows
  match vs, hv with
  | [], _ => simp [writeItems, itemLexemes]
  | [v], hv => 
      rw [allNumberless, Bool.and_eq_true] at hv
      exact lexemes?_write v hv.1 rest
  | v :: w :: vs, hv =>
      rw [allNumberless, Bool.and_eq_true] at hv
      rw [writeItems_cons_cons, List.append_assoc, lexemes?_write v hv.1, List.cons_append,
        lexemes?_cons (by decide) rfl, lexemes?_writeItems (w :: vs) hv.2]
      simp only [Option.map_map, itemLexemes_cons_cons, Function.comp_def, List.cons_append,
        List.append_assoc]

theorem lexemes?_writeMembers (ms : List (Text × Json)) (hm : membersNumberless ms = true)
    (rest : Text) :
    lexemes? (writeMembers ms ++ rest) = (lexemes? rest).map (memberLexemes ms ++ ·) := by
  match ms, hm with
  | [], _ => simp [writeMembers, memberLexemes]
  | [(k, v)], hm =>
      rw [membersNumberless, Bool.and_eq_true] at hm
      rw [writeMembers, List.append_assoc, lexemes?_quote, List.cons_append,
        lexemes?_cons (by decide) rfl, lexemes?_write v hm.1]
      simp only [Option.map_map, memberLexemes, Function.comp_def, List.cons_append]
  | (k, v) :: m :: ms, hm =>
      rw [membersNumberless, Bool.and_eq_true] at hm
      rw [writeMembers_cons_cons, List.append_assoc, lexemes?_quote, List.cons_append,
        lexemes?_cons (by decide) rfl, List.append_assoc, lexemes?_write v hm.1, List.cons_append,
        lexemes?_cons (by decide) rfl, lexemes?_writeMembers (m :: ms) hm.2]
      simp only [Option.map_map, memberLexemes_cons_cons, Function.comp_def, List.cons_append,
        List.append_assoc]

end

/-! ## From lexemes to the document -/

/-- The reader goes from one state to another over some lexemes. -/
def Machine.Runs (limit : Nat) (m : Machine) (ls : List Lexeme) (m' : Machine) : Prop :=
  ls.foldlM (Machine.step limit) m = some m'

namespace Machine.Runs

variable {limit : Nat} {m m₁ m₂ : Machine} {l : Lexeme} {ls ls' : List Lexeme}

theorem nil : Runs limit m [] m := rfl

theorem cons (hs : m.step limit l = some m₁) (hr : Runs limit m₁ ls m₂) :
    Runs limit m (l :: ls) m₂ := by
  rw [Runs, List.foldlM_cons, hs]
  exact hr

theorem append (h : Runs limit m ls m₁) (h' : Runs limit m₁ ls' m₂) :
    Runs limit m (ls ++ ls') m₂ := by
  rw [Runs, List.foldlM_append, h]
  exact h'

end Machine.Runs

open Machine (Runs)

variable {limit : Nat}

/-- A lexeme that ends no array starts the first element just as it starts any value. -/
theorem step_element {cs : List Container} {l : Lexeme} (h : l ≠ .closeArray) :
    Machine.step limit ⟨cs, .element⟩ l = Machine.step limit ⟨cs, .value⟩ l := by
  cases l <;> first | rfl | exact absurd rfl h

/-- A document does not start with the end of an array. -/
theorem lexemes_head (v : Json) : ∃ l ls, v.lexemes = l :: ls ∧ l ≠ .closeArray := by
  cases v <;> exact ⟨_, _, rfl, Lexeme.noConfusion⟩

theorem itemLexemes_head {vs : List Json} (h : vs ≠ []) :
    ∃ l ls, itemLexemes vs = l :: ls ∧ l ≠ .closeArray := by
  match vs, h with
  | [v], _ => exact lexemes_head v
  | v :: w :: vs, _ =>
      obtain ⟨l, ls, hl, hne⟩ := lexemes_head v
      exact ⟨l, _, by rw [itemLexemes_cons_cons, hl]; rfl, hne⟩

theorem memberLexemes_head {ms : List (Text × Json)} (h : ms ≠ []) :
    ∃ k ls, memberLexemes ms = .string k :: ls := by
  match ms, h with
  | [(k, _)], _ => exact ⟨k, _, rfl⟩
  | (k, _) :: _ :: _, _ => exact ⟨k, _, rfl⟩

mutual

/-- The lexemes of a document are read as that document. -/
theorem runs_value (v : Json) (cs : List Container) (hd : cs.length + v.depth ≤ limit) :
    Runs limit ⟨cs, .value⟩ v.lexemes ⟨cs, .afterValue v⟩ := by
  cases v with
  | null => rfl
  | bool b => rfl
  | number n => rfl
  | string t => rfl
  | array items =>
      have hlen : cs.length + itemsDepth items + 1 ≤ limit := hd
      have hopen : Machine.step limit ⟨cs, .value⟩ .openArray =
          some ⟨.array [] :: cs, .element⟩ := if_pos (show cs.length < limit by omega)
      refine .cons hopen ?_
      by_cases hne : items = []
      · rw [hne]
        exact .cons rfl .nil
      · -- the first element is read as if a comma stood before it
        have hitems := runs_items items hne [] cs (by omega)
        obtain ⟨l, ls, hl, hclose⟩ := itemLexemes_head hne
        rw [hl] at hitems ⊢
        rw [Runs, List.cons_append, List.foldlM_cons, step_element hclose]
        exact hitems
  | object members =>
      have hlen : cs.length + membersDepth members + 1 ≤ limit := hd
      have hopen : Machine.step limit ⟨cs, .value⟩ .openObject =
          some ⟨cs, .firstKey⟩ := if_pos (show cs.length < limit by omega)
      refine .cons hopen ?_
      by_cases hne : members = []
      · rw [hne]
        exact .cons rfl .nil
      · -- the first key is read as any further key of an object without members
        have hmembers := runs_members members hne [] cs (by omega)
        obtain ⟨k, ls, hl⟩ := memberLexemes_head hne
        rw [hl] at hmembers ⊢
        exact hmembers

/-- Elements and the end of their array are read as the array. -/
theorem runs_items (vs : List Json) (hne : vs ≠ []) (done : List Json) (cs : List Container)
    (hd : cs.length + 1 + itemsDepth vs ≤ limit) :
    Runs limit ⟨.array done :: cs, .value⟩ (itemLexemes vs ++ [.closeArray])
      ⟨cs, .afterValue (.array (done.reverse ++ vs))⟩ := by
  match vs, hne, hd with
  | [v], _, hd =>
      rw [itemsDepth] at hd
      have hv := runs_value v (.array done :: cs) (by rw [List.length_cons]; omega)
      refine hv.append (.cons ?_ .nil)
      simp only [Machine.step, Machine.close, List.reverse_cons]
  | v :: w :: vs, _, hd =>
      rw [itemsDepth] at hd
      have hv := runs_value v (.array done :: cs) (by rw [List.length_cons]; omega)
      have hrest := runs_items (w :: vs) (List.cons_ne_nil w vs) (v :: done) cs (by omega)
      rw [List.reverse_cons, List.append_assoc] at hrest
      rw [itemLexemes_cons_cons, List.append_assoc]
      exact hv.append (.cons rfl hrest)

/-- Members and the end of their object are read as the object. -/
theorem runs_members (ms : List (Text × Json)) (hne : ms ≠ []) (done : List (Text × Json))
    (cs : List Container) (hd : cs.length + 1 + membersDepth ms ≤ limit) :
    Runs limit ⟨cs, .key (some done)⟩ (memberLexemes ms ++ [.closeObject])
      ⟨cs, .afterValue (.object (done.reverse ++ ms))⟩ := by
  match ms, hne, hd with
  | [(k, v)], _, hd =>
      rw [membersDepth] at hd
      have hv := runs_value v (.object (some done) k :: cs) (by rw [List.length_cons]; omega)
      refine .cons rfl (.cons rfl (hv.append (.cons ?_ .nil)))
      simp only [Machine.step, Machine.close, Members.add, Members.toObject, Option.map_some,
        List.reverse_cons]
  | (k, v) :: m :: ms, _, hd =>
      rw [membersDepth] at hd
      have hv := runs_value v (.object (some done) k :: cs) (by rw [List.length_cons]; omega)
      have hrest := runs_members (m :: ms) (List.cons_ne_nil m ms) ((k, v) :: done) cs
        (by omega)
      rw [List.reverse_cons, List.append_assoc] at hrest
      rw [memberLexemes_cons_cons, List.cons_append, List.cons_append, List.append_assoc]
      exact .cons rfl (.cons rfl (hv.append (.cons rfl hrest)))

end

/-- A document without numbers that is nested no deeper than a limit is read as it was written. -/
theorem parseWithin?_write {v : Json} (hn : v.isNumberless = true) (hd : v.depth ≤ limit) :
    parseWithin? limit v.write = some v := by
  -- the written document is all of the text, and the machine ends outside of all containers
  have hl := lexemes?_write v hn []
  have hnil : lexemes? [] = some [] := by rw [lexemes?]; rfl
  rw [hnil, List.append_nil] at hl
  have hr : v.lexemes.foldlM (Machine.step limit) Machine.start = some ⟨[], .afterValue v⟩ :=
    runs_value v [] (by simpa using hd)
  rw [parseWithin?, hl]
  simp only [Option.map_some, List.append_nil, Option.bind_eq_bind, Option.bind_some, hr]
  rfl

/-- A document without numbers that is not nested too deep is read sorted. -/
theorem read?_write {v : Json} (hn : v.isNumberless = true) (hd : v.depth ≤ nestingLimit) :
    read? v.write = some v.sorted := by
  rw [read?, parseWithin?_write hn hd]
  exact if_pos (hasValues_of_isNumberless v hn)

end PagePress.Json
