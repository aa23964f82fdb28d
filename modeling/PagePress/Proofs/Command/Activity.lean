/-
  PagePress.Proofs.Command.Activity

  Activities on the files of a workspace.

  `Activity.on` is the run of an activity.  An activity that reads an input
  gives what the files hold and changes nothing, or it fails and changes no
  file (`Activity.Reads`); there is a lemma of this form for every input of
  the commands.  Printing adds to what has been printed and has no other
  effect, and a file that was written can be read (`Activity.writes_file`).
-/

import PagePress.Command.Run
import PagePress.Proofs.Workspace.ReadBack

namespace PagePress

/-! ## What files hold -/

namespace Workspace

/-- The text in a file. -/
def text? (w : Workspace) (path : Text) : Option Text := (w.read path).toOption

/-- The variables in a file, if it holds a JSON object. -/
def variables? (w : Workspace) (path : Text) : Option Context :=
  match (w.text? path).bind Json.read? with
  | some (.object members) => some (Context.ofJson (.object members))
  | _ => none

/-- The pattern library in a file, or the built-in one. -/
def library? (w : Workspace) : Option Text → Option PatternLibrary
  | none => some Pattern.builtin
  | some path => (PatternLibrary.ofFile path (w.read path)).toOption

/-- The rule set in a file, or the built-in one. -/
def rules? (w : Workspace) : Option Text → Option RuleSet
  | none => some RuleSet.builtin
  | some path => (RuleSet.ofFile (w.read path)).toOption

/-- The settings of a rendering. -/
def renderer? (w : Workspace) (moment : Moment) (o : RenderOptions) : Option Renderer :=
  (w.library? o.patterns).map fun library =>
    ⟨library, o.seed.getD moment.seed, o.depthLimit.getD defaultDepthLimit⟩

end Workspace

/-! ## Runs -/

namespace Activity

variable {α β : Type} {a : Activity (StateM Workspace) α} {f : α → Activity (StateM Workspace) β}
  {w : Workspace}

/-- The run of an activity after something has been printed: its result with all that has been
    printed in the end, and the files that it leaves. -/
def on (a : Activity (StateM Workspace) α) (p : Printed) (w : Workspace) :
    (Except Failure α × Printed) × Workspace := a.run.run p w

theorem on_bind (p : Printed) (w : Workspace) :
    (a >>= f).on p w =
      match a.on p w with
      | ((.ok x, q), w') => (f x).on q w'
      | ((.error failure, q), w') => ((.error failure, q), w') := by
  unfold on
  simp only [bind, ExceptT.bind, ExceptT.run, ExceptT.mk, StateT.bind, StateT.run,
    ExceptT.bindCont]
  rcases a p w with ⟨⟨_ | x, q⟩, w'⟩ <;> rfl

theorem on_access (action : StateM Workspace α) (p : Printed) (w : Workspace) :
    (access action).on p w = ((.ok (action w).1, p), (action w).2) := rfl

theorem on_print (line : Text) (p : Printed) (w : Workspace) :
    (print line).on p w = ((.ok (), { p with output := p.output ++ line ++ ['\n'] }), w) := rfl

theorem on_report (ds : List Diagnostic) (p : Printed) (w : Workspace) :
    (report ds).on p w =
      ((.ok (), { p with messages := p.messages ++ ds.flatMap fun d => d.toText ++ ['\n'] }), w) :=
  rfl

/-! ## Inputs -/

/-- The activity gives a value and has no effect. -/
def Gives (a : Activity (StateM Workspace) α) (w : Workspace) (x : α) : Prop :=
  ∀ p, a.on p w = ((.ok x, p), w)

/-- The activity ends in a failure and leaves the files as they are. -/
def Fails (a : Activity (StateM Workspace) α) (w : Workspace) : Prop :=
  ∀ p, ∃ failure q, a.on p w = ((.error failure, q), w)

theorem Gives.on_bind {x : α} (h : a.Gives w x) (p : Printed) :
    (a >>= f).on p w = (f x).on p w := by
  rw [Activity.on_bind, h p]

theorem Gives.fails {x : α} (h : a.Gives w x) (hf : (f x).Fails w) : (a >>= f).Fails w := by
  intro p
  rw [h.on_bind p]
  exact hf p

theorem Fails.bind (h : a.Fails w) : (a >>= f).Fails w := by
  intro p
  obtain ⟨failure, q, hp⟩ := h p
  rw [Activity.on_bind, hp]
  exact ⟨failure, q, rfl⟩

theorem fails_throw (failure : Failure) :
    (throw failure : Activity (StateM Workspace) α).Fails w :=
  fun p => ⟨failure, p, rfl⟩

/-- The activity gives a value if there is one and fails if there is none; in neither case does it
    change a file. -/
structure Reads (a : Activity (StateM Workspace) α) (w : Workspace) (x? : Option α) : Prop where
  gives : ∀ x, x? = some x → a.Gives w x
  fails : x? = none → a.Fails w

namespace Reads

theorem of_gives {x : α} (h : a.Gives w x) : a.Reads w (some x) where
  gives _ hx := Option.some.inj hx ▸ h
  fails hx := absurd hx (Option.some_ne_none x)

theorem of_fails (h : a.Fails w) : a.Reads w none where
  gives x hx := absurd hx.symm (Option.some_ne_none x)
  fails _ := h

end Reads

theorem Gives.reads_bind {x : α} {y? : Option β} (h : a.Gives w x) (hf : (f x).Reads w y?) :
    (a >>= f).Reads w y? where
  gives y hy p := by
    rw [h.on_bind p]
    exact hf.gives y hy p
  fails hy := h.fails (hf.fails hy)

theorem Reads.bind {x? : Option α} {y? : α → Option β} (h : a.Reads w x?)
    (hf : ∀ x, (f x).Reads w (y? x)) : (a >>= f).Reads w (x?.bind y?) := by
  cases x? with
  | none => exact .of_fails (h.fails rfl).bind
  | some x => exact (h.gives x rfl).reads_bind (hf x)

theorem gives_read (w : Workspace) (path : Text) :
    (access (FileAccess.readText path) : Activity (StateM Workspace) _).Gives w (w.read path) :=
  fun _ => rfl

theorem reads_input (w : Workspace) (path : Text) : (readInput path).Reads w (w.text? path) := by
  refine (gives_read w path).reads_bind ?_
  rw [Workspace.text?]
  cases w.read path with
  | ok t => exact .of_gives fun _ => rfl
  | error cause => exact .of_fails (fails_throw _)

theorem reads_variables (w : Workspace) (path : Text) :
    (readVariables path).Reads w (w.variables? path) := by
  have hinput := reads_input w path
  rw [Workspace.variables?]
  cases htext : w.text? path with
  | none => exact .of_fails (hinput.fails htext).bind
  | some t =>
      refine (hinput.gives t htext).reads_bind ?_
      rw [Option.bind_some]
      cases Json.read? t with
      | none => exact .of_fails (fails_throw _)
      | some v =>
          cases v with
          | object members => exact .of_gives fun _ => rfl
          | _ => exact .of_fails (fails_throw _)

theorem reads_library (w : Workspace) (path : Option Text) :
    (readLibrary path).Reads w (w.library? path) := by
  cases path with
  | none => exact .of_gives fun _ => rfl
  | some path =>
      refine (gives_read w path).reads_bind ?_
      rw [Workspace.library?]
      cases PatternLibrary.ofFile path (w.read path) with
      | ok l => exact .of_gives fun _ => rfl
      | error cause => exact .of_fails (fails_throw _)

theorem reads_rules (w : Workspace) (path : Option Text) :
    (readRules path).Reads w (w.rules? path) := by
  cases path with
  | none => exact .of_gives fun _ => rfl
  | some path =>
      refine (gives_read w path).reads_bind ?_
      rw [Workspace.rules?]
      cases RuleSet.ofFile (w.read path) with
      | ok r => exact .of_gives fun _ => rfl
      | error cause => exact .of_fails fun p => ⟨_, _, rfl⟩

theorem reads_renderer (w : Workspace) (o : RenderOptions) (moment : Moment) :
    (readRenderer o moment).Reads w (w.renderer? moment o) := by
  have hlibrary := reads_library w o.patterns
  rw [Workspace.renderer?]
  cases hl : w.library? o.patterns with
  | none => exact .of_fails (hlibrary.fails hl).bind
  | some l => exact (hlibrary.gives l hl).reads_bind (.of_gives fun _ => rfl)

/-! ## Results -/

/-- Writing depends on the files alone and prints nothing; if it succeeds, the text is read from
    the file. -/
def Writes (a : Activity (StateM Workspace) Unit) (w : Workspace) (path content : Text) : Prop :=
  ∃ result w', (∀ p, a.on p w = ((result, p), w')) ∧
    (result = .ok () → w'.read path = .ok content)

theorem on_change (change : Workspace → Option Workspace) (p : Printed) (w : Workspace) :
    (access (Workspace.tryChange change) : Activity (StateM Workspace) Bool).on p w =
      match change w with
      | some w' => ((.ok true, p), w')
      | none => ((.ok false, p), w) := by
  rw [on_access]
  have hrun : Workspace.tryChange change w =
      match change w with
      | some w' => (true, w')
      | none => (false, w) := rfl
  rw [hrun]
  cases change w <;> rfl

theorem writes_text (w : Workspace) (path content : Text) :
    Writes (do unless ← access (FileAccess.writeText path content) do throw (.notWritten path))
      w path content := by
  have hrun (p : Printed) :
      (access (FileAccess.writeText path content) : Activity (StateM Workspace) Bool).on p w =
        match w.write? path content with
        | some w' => ((.ok true, p), w')
        | none => ((.ok false, p), w) := on_change (fun w => w.write? path content) p w
  cases hwrite : w.write? path content with
  | none =>
      refine ⟨.error (.notWritten path), w, fun p => ?_, fun h => by cases h⟩
      rw [on_bind, hrun, hwrite]
      rfl
  | some w' =>
      refine ⟨.ok (), w', fun p => ?_, fun _ => Workspace.read_of_write? hwrite⟩
      rw [on_bind, hrun, hwrite]
      rfl

theorem writes_file (w : Workspace) (path content : Text) :
    (writeFile path content).Writes w path content := by
  unfold writeFile
  split
  · next directory _ =>
      have hrun (p : Printed) :
          (access (FileAccess.makeDirectory directory) : Activity (StateM Workspace) Bool).on p w =
            match w.makeDirectory? directory with
            | some w' => ((.ok true, p), w')
            | none => ((.ok false, p), w) := on_change (fun w => w.makeDirectory? directory) p w
      cases hmake : w.makeDirectory? directory with
      | none =>
          refine ⟨.error (.noDirectory directory), w, fun p => ?_, fun h => by cases h⟩
          simp only [on_bind, hrun, hmake]
          rfl
      | some made =>
          obtain ⟨result, w', hwrite, hread⟩ := writes_text made path content
          refine ⟨result, w', fun p => ?_, hread⟩
          simp only [on_bind, hrun, hmake]
          exact hwrite p
  · exact writes_text w path content

/-! ## Verdicts -/

end Activity

/-- The exit code that a verdict makes up. -/
def Verdict.exit (v : Verdict) : Nat := if v.isValid then 0 else 1

/-- What is printed of a verdict. -/
def Verdict.printed (asJson : Bool) (v : Verdict) : Printed :=
  if asJson then { output := v.toJson.pretty ++ ['\n'] }
  else
    let lines := Activity.scoreLine v :: v.suggestions.map ("  - ".toList ++ ·) ++
      [if v.isValid then "PASS".toList else "BLOCKED".toList]
    { output := lines.flatMap (· ++ ['\n'])
      messages := (v.errors ++ v.warnings).flatMap fun d => d.toText ++ ['\n'] }

namespace Activity

theorem on_printEach (f : Text → Text) (ts : List Text) (p : Printed) (w : Workspace) :
    (forIn ts PUnit.unit fun t _ => do
        print (f t)
        pure (.yield PUnit.unit) : Activity (StateM Workspace) PUnit).on p w =
      ((.ok (), { p with output := p.output ++ (ts.map f).flatMap (· ++ ['\n']) }), w) := by
  induction ts generalizing p with
  | nil =>
      rw [List.forIn_nil, List.map_nil, List.flatMap_nil, List.append_nil]
      rfl
  | cons t ts ih =>
      rw [List.forIn_cons, bind_assoc, on_bind, on_print]
      simp only [pure_bind]
      rw [ih]
      simp only [List.map_cons, List.flatMap_cons, List.append_assoc]

theorem printVerdict_on (v : Verdict) (w : Workspace) :
    (printVerdict v).on {} w = ((.ok (), v.printed false), w) := by
  unfold printVerdict
  rw [on_bind, on_report]
  simp only
  rw [on_bind, on_print]
  simp only
  rw [on_bind, on_printEach]
  simp only [on_print, Verdict.printed, Bool.false_eq_true, if_false, List.cons_append,
    List.flatMap_cons, List.flatMap_append, List.flatMap_nil, List.append_nil, List.nil_append,
    List.append_assoc]

theorem giveVerdict_on (asJson : Bool) (v : Verdict) (w : Workspace) :
    (giveVerdict asJson v).on {} w = ((.ok v.exit, v.printed asJson), w) := by
  cases asJson with
  | true => rfl
  | false =>
      show (printVerdict v >>= fun _ => pure v.exit).on {} w = _
      rw [on_bind, printVerdict_on]
      rfl

end Activity

end PagePress
