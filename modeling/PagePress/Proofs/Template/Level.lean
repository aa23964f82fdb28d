/-
  PagePress.Proofs.Template.Level

  Runs over a stack of levels.

  What is set on a level depends on how it and the levels below it were opened
  and on nothing else (`Level.opened`).  A run from the root keeps to that
  (`OpenedBy.run`), so the depth never passes the limit.  What is reported
  stays in order on the levels from root to top: a step adds at its end, takes
  off what is on the top level, or moves it without a change
  (`LevelStack.run_levels`).
-/

import Mathlib.Data.List.Infix
import PagePress.Template.Level

namespace PagePress

/-- How a level above the root was opened. -/
inductive Opening where
  /-- For the body of a loop. -/
  | loop
  /-- For the expansion of a pattern. -/
  | pattern
  deriving DecidableEq

/-- A level on which nothing is reported yet, given the openings from its own down to that of the
    level above the root. -/
def Level.opened (limit : Nat) (escape : Escape) (openings : List Opening) : Level where
  depth := openings.count .pattern
  limit := limit
  escape := if .pattern ∈ openings then .verbatim else escape
  diagnostics := []

namespace LevelStack

/-! ## Runs -/

/-- What is reported on all levels, from root to top. -/
def reported (s : LevelStack) : List Diagnostic := s.levels.flatMap Level.diagnostics

/-- The stack after some steps. -/
def run (s : LevelStack) : List Step → LevelStack
  | [] => s
  | step :: steps => run (s.step step).1 steps

/-- The openings of the levels above the root, topmost first, once a step went in some way. -/
def recordStep (openings : List Opening) : Step → Outcome → List Opening
  | .child, .done => .loop :: openings
  | .nested, .done => .pattern :: openings
  | .merge, .done => openings.tail
  | .drop, .done => openings.tail
  | _, _ => openings

/-- The openings of the levels above the root, topmost first, after some steps. -/
def record (s : LevelStack) (openings : List Opening) : List Step → List Opening
  | [] => openings
  | step :: steps => record (s.step step).1 (recordStep openings step (s.step step).2) steps

/-- What a step reports. -/
def Step.diagnostics : Step → List Diagnostic
  | .add d => [d]
  | _ => []

variable {s : LevelStack}

/-! ## Reports -/

theorem reported_cons (top l : Level) (ls : List Level) :
    reported ⟨top, l :: ls⟩ = reported ⟨l, ls⟩ ++ top.diagnostics := by
  simp only [reported, levels, List.reverse_cons, List.flatMap_append, List.flatMap_cons,
    List.flatMap_nil, List.append_nil]

/-- A level that has nothing reported on it adds nothing. -/
theorem reported_open {above : Level} (h : above.diagnostics = []) (s : LevelStack) :
    reported ⟨above, s.top :: s.below⟩ = s.reported := by
  rw [reported_cons, h, List.append_nil]

/-- What is reported on the top level comes last. -/
theorem reported_top (top : Level) (ds : List Diagnostic) (ls : List Level) :
    reported ⟨{ top with diagnostics := top.diagnostics ++ ds }, ls⟩ =
      reported ⟨top, ls⟩ ++ ds := by
  simp only [reported, levels, List.reverse_cons, List.flatMap_append, List.flatMap_cons,
    List.flatMap_nil, List.append_nil, List.append_assoc]

theorem reported_add (s : LevelStack) (d : Diagnostic) :
    (s.step (.add d)).1.reported = s.reported ++ [d] :=
  reported_top s.top [d] s.below

theorem reported_child (s : LevelStack) : (s.step .child).1.reported = s.reported :=
  reported_open rfl s

theorem reported_nested (s : LevelStack) : (s.step .nested).1.reported = s.reported := by
  rw [LevelStack.step, Level.nested?]
  -- a refused pattern leaves the stack as it is
  by_cases hlimit : s.top.limit ≤ s.top.depth
  · rw [if_pos hlimit]
  · rw [if_neg hlimit]
    exact reported_open rfl s

theorem reported_merge (s : LevelStack) : (s.step .merge).1.reported = s.reported := by
  obtain ⟨top, below⟩ := s
  cases below with
  | nil => rfl
  | cons l ls =>
      rw [reported_cons]
      exact reported_top l top.diagnostics ls

/-- Leaving a level loses what is reported on it; the root is not left. -/
theorem reported_drop (s : LevelStack) :
    (s.step .drop).1.reported ++ (if s.below = [] then [] else s.top.diagnostics) =
      s.reported := by
  obtain ⟨top, below⟩ := s
  cases below with
  | nil => exact List.append_nil _
  | cons l ls =>
      rw [reported_cons, if_neg (List.cons_ne_nil l ls)]
      rfl

/-- A step that does not drop a level loses nothing. -/
theorem reported_step (s : LevelStack) {step : Step} (hdrop : step ≠ .drop) :
    (s.step step).1.reported = s.reported ++ step.diagnostics := by
  cases step with
  | add d => exact reported_add s d
  | child => exact (reported_child s).trans (List.append_nil _).symm
  | nested => exact (reported_nested s).trans (List.append_nil _).symm
  | merge => exact (reported_merge s).trans (List.append_nil _).symm
  | drop => exact absurd rfl hdrop

/-- No step reports anything twice or out of order. -/
theorem reported_step_sublist (s : LevelStack) (step : Step) :
    (s.step step).1.reported.Sublist (s.reported ++ step.diagnostics) := by
  by_cases hdrop : step = .drop
  · subst hdrop
    rw [← reported_drop s, List.append_assoc]
    exact List.sublist_append_left _ _
  · rw [reported_step s hdrop]

theorem reported_run_sublist (s : LevelStack) (steps : List Step) :
    (s.run steps).reported.Sublist (s.reported ++ steps.flatMap Step.diagnostics) := by
  induction steps generalizing s with
  | nil => exact List.sublist_append_left _ _
  | cons step steps ih =>
      rw [List.flatMap_cons, ← List.append_assoc]
      exact (ih (s.step step).1).trans ((reported_step_sublist s step).append_right _)

theorem reported_run (s : LevelStack) {steps : List Step} (hdrop : .drop ∉ steps) :
    (s.run steps).reported = s.reported ++ steps.flatMap Step.diagnostics := by
  induction steps generalizing s with
  | nil => exact (List.append_nil _).symm
  | cons step steps ih =>
      rw [List.mem_cons, not_or] at hdrop
      rw [List.flatMap_cons, ← List.append_assoc, ← reported_step s (Ne.symm hdrop.1)]
      exact ih _ hdrop.2

/-! ## Openings -/

/-- The levels of a stack are set up as they were opened, and none is deeper than the limit. -/
structure OpenedBy (limit : Nat) (escape : Escape) (openings : List Opening) (s : LevelStack) :
    Prop where
  settings : (s.top :: s.below).map Level.child = openings.tails.map (.opened limit escape)
  count_le : openings.count .pattern ≤ limit

namespace OpenedBy

variable {limit : Nat} {escape : Escape} {openings : List Opening} {l above : Level}

theorem start (limit : Nat) (escape : Escape) : OpenedBy limit escape [] (.start limit escape) :=
  ⟨rfl, Nat.zero_le limit⟩

/-- The level at some place is set up as it and the levels below it were opened. -/
theorem child_eq (h : OpenedBy limit escape openings s) {i : Nat}
    (hl : (s.top :: s.below)[i]? = some l) : l.child = .opened limit escape (openings.drop i) := by
  have hat : ((s.top :: s.below).map Level.child)[i]? = some l.child := by
    rw [List.getElem?_map, hl]
    rfl
  rw [h.settings, List.getElem?_map] at hat
  obtain ⟨os, hos, hl⟩ := Option.map_eq_some_iff.1 hat
  obtain ⟨hi, rfl⟩ := List.getElem?_eq_some_iff.1 hos
  rw [← hl, List.getElem_tails]

theorem top_eq (h : OpenedBy limit escape openings s) :
    s.top.child = .opened limit escape openings :=
  h.child_eq (i := 0) rfl

theorem length_eq (h : OpenedBy limit escape openings s) : openings.length + 1 = s.size := by
  have hlength := congrArg List.length h.settings
  rwa [List.length_map, List.length_map, List.length_tails, List.length_cons, eq_comm] at hlength

/-- Reporting leaves the settings of a level as they are. -/
theorem report {ls : List Level} (h : OpenedBy limit escape openings ⟨l, ls⟩)
    (ds : List Diagnostic) : OpenedBy limit escape openings ⟨{ l with diagnostics := ds }, ls⟩ :=
  ⟨h.settings, h.count_le⟩

theorem push (h : OpenedBy limit escape openings s) {o : Opening}
    (habove : above.child = .opened limit escape (o :: openings))
    (hcount : (o :: openings).count .pattern ≤ limit) :
    OpenedBy limit escape (o :: openings) ⟨above, s.top :: s.below⟩ := by
  refine ⟨?_, hcount⟩
  rw [List.tails_cons]
  exact congrArg₂ List.cons habove h.settings

theorem pop {ls : List Level} (h : OpenedBy limit escape openings ⟨above, l :: ls⟩) :
    OpenedBy limit escape openings.tail ⟨l, ls⟩ := by
  have hlength := h.length_eq
  cases openings with
  | nil => exact absurd hlength (by simp [size])
  | cons o os =>
      have hsettings := h.settings
      rw [List.tails_cons, List.map_cons, List.map_cons] at hsettings
      exact ⟨(List.cons.inj hsettings).2, Nat.le_trans List.count_le_count_cons h.count_le⟩

/-- A level for a loop body is set up like the one below. -/
theorem child (h : OpenedBy limit escape openings s) :
    OpenedBy limit escape (.loop :: openings) ⟨s.top.child, s.top :: s.below⟩ := by
  have hcount : (Opening.loop :: openings).count .pattern = openings.count .pattern :=
    List.count_cons_of_ne (by decide)
  have hmem : .pattern ∈ Opening.loop :: openings ↔ .pattern ∈ openings := by simp
  have hopened : Level.opened limit escape (.loop :: openings) = .opened limit escape openings := by
    simp only [Level.opened, hcount, hmem]
  exact h.push (hopened ▸ h.top_eq) (hcount ▸ h.count_le)

/-- A level for a pattern is opened exactly if the top level is not as deep as the limit. -/
theorem nested (h : OpenedBy limit escape openings s) :
    s.top.nested? = if s.top.depth = limit then none
      else some (.opened limit escape (.pattern :: openings)) := by
  have hlimit : s.top.limit = limit := congrArg Level.limit h.top_eq
  have hdepth : s.top.depth = openings.count .pattern := congrArg Level.depth h.top_eq
  have hopened : Level.opened limit escape (.pattern :: openings) =
      ⟨s.top.depth + 1, limit, .verbatim, []⟩ := by
    rw [Level.opened, List.count_cons_self, if_pos List.mem_cons_self, hdepth]
  have hle := h.count_le
  have hiff : s.top.limit ≤ s.top.depth ↔ s.top.depth = limit := by omega
  rw [Level.nested?, hopened, hlimit]
  simp only [hlimit] at hiff
  simp only [hiff]

/-- One step. -/
theorem step (h : OpenedBy limit escape openings s) (step : Step) :
    OpenedBy limit escape (recordStep openings step (s.step step).2) (s.step step).1 := by
  cases step with
  | add d => exact h.report (s.top.diagnostics ++ [d])
  | child => exact h.child
  | nested =>
      rw [LevelStack.step, h.nested]
      by_cases hdepth : s.top.depth = limit
      · rw [if_pos hdepth]
        exact h
      · have hcount : s.top.depth = openings.count .pattern := congrArg Level.depth h.top_eq
        have hle := h.count_le
        rw [if_neg hdepth]
        exact h.push rfl (by rw [List.count_cons_self]; omega)
  | merge =>
      obtain ⟨top, below⟩ := s
      cases below with
      | nil => exact h
      | cons l ls => exact h.pop.report (l.diagnostics ++ top.diagnostics)
  | drop =>
      obtain ⟨top, below⟩ := s
      cases below with
      | nil => exact h
      | cons l ls => exact h.pop

theorem run (h : OpenedBy limit escape openings s) (steps : List Step) :
    OpenedBy limit escape (s.record openings steps) (s.run steps) := by
  induction steps generalizing s openings with
  | nil => exact h
  | cons step steps ih => exact ih (h.step step)

end OpenedBy

/-- After any run from the root, what is reported from root to top is kept in order by the next
    step: it is added to at its end, unchanged, or loses what is on the top level.  Over the whole
    run nothing is reported twice or out of order, and nothing is lost unless a level is dropped.
    No level is deeper than the limit, a pattern is refused exactly on a level as deep as the limit,
    and text is escaped exactly on the levels that no pattern was opened for, on it or below it, if
    it is on the root. -/
theorem run_levels (limit : Nat) (escape : Escape) (steps : List Step) :
    let s := (start limit escape).run steps
    let openings := (start limit escape).record [] steps
    ((∀ d, (s.step (.add d)).1.reported = s.reported ++ [d]) ∧
        (s.step .child).1.reported = s.reported ∧ (s.step .nested).1.reported = s.reported ∧
        (s.step .merge).1.reported = s.reported ∧
        (s.step .drop).1.reported ++ (if s.below = [] then [] else s.top.diagnostics) =
          s.reported) ∧
      (s.reported.Sublist (steps.flatMap Step.diagnostics) ∧
        (.drop ∉ steps → s.reported = steps.flatMap Step.diagnostics)) ∧
      (∀ l ∈ s.levels, l.depth ≤ limit ∧ l.limit = limit) ∧
      ((s.step .nested).2 = .refused ↔ s.top.depth = limit) ∧
      openings.length + 1 = s.size ∧
      ∀ i l, (s.top :: s.below)[i]? = some l →
        (l.escape = .json ↔ escape = .json ∧ .pattern ∉ openings.drop i) := by
  intro s openings
  have hopened : OpenedBy limit escape openings s := (OpenedBy.start limit escape).run steps
  refine ⟨⟨reported_add s, reported_child s, reported_nested s, reported_merge s,
    reported_drop s⟩, ⟨reported_run_sublist _ steps, reported_run _⟩, ?_, ?_, hopened.length_eq, ?_⟩
  · intro l hl
    obtain ⟨i, hi⟩ := List.mem_iff_getElem?.1 (List.mem_reverse.1 hl)
    have hchild := hopened.child_eq hi
    have hdepth : l.depth = (openings.drop i).count .pattern := congrArg Level.depth hchild
    have hcount := ((List.drop_sublist i openings).count_le .pattern)
    have hle := hopened.count_le
    exact ⟨by omega, congrArg Level.limit hchild⟩
  · rw [LevelStack.step, hopened.nested]
    by_cases hdepth : s.top.depth = limit
    · rw [if_pos hdepth]
      exact iff_of_true rfl hdepth
    · rw [if_neg hdepth]
      exact iff_of_false nofun hdepth
  · intro i l hl
    have hescape : l.escape = if .pattern ∈ openings.drop i then .verbatim else escape :=
      congrArg Level.escape (hopened.child_eq hl)
    rw [hescape]
    by_cases hmem : .pattern ∈ openings.drop i
    · rw [if_pos hmem]
      exact iff_of_false nofun fun h => h.2 hmem
    · rw [if_neg hmem]
      exact iff_self_and.2 fun _ => hmem

end LevelStack

end PagePress
