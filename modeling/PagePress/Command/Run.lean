/-
  PagePress.Command.Run

  Running commands.

  A command reads its inputs in a fixed order, works, and writes.  What it
  prints goes to two places: results to the output, diagnostics and the
  message of a failure to the messages.  The first failure ends a command;
  what was printed before it stays printed.
-/

import PagePress.Command.Arguments
import PagePress.Command.Help
import PagePress.Diagnostic.Catalog
import PagePress.Gate.Verdict
import PagePress.Pattern.Builtin
import PagePress.Pattern.Load
import PagePress.Rules.Load
import PagePress.Text.Upper
import PagePress.Workspace.Basic

namespace PagePress

/-! ## Failures -/

/-- Why a command ends early. -/
inductive Failure where
  | unreadable (path : Text) (cause : ReadError)
  | notJson (path : Text)
  | notObject (path : Text)
  | badLibrary (path : Text) (cause : LibraryError)
  | badRules (path : Text) (cause : RuleError)
  | notStructured (template : Text)
  | noDirectory (path : Text)
  | notWritten (path : Text)
  | unknownCode (code : Text)

def Failure.message : Failure → Text
  | unreadable path _ => "Failed to read input file " ++ path
  | notJson path => "Variables file " ++ path ++ " is not valid JSON"
  | notObject path => "Variables file " ++ path ++ " must contain a JSON object"
  | badLibrary path _ => "Failed to load pattern library " ++ path
  | badRules path _ => "Failed to load rule set " ++ path
  | notStructured template => "Failed to render " ++ template ++ " as JSON"
  | noDirectory path => "Failed to create output directory " ++ path
  | notWritten path => "Failed to write output file " ++ path
  | unknownCode code => "Unknown diagnostic code: " ++ code

/-! ## Surroundings -/

/-- What a run takes from the clock. -/
structure Moment where
  now : Instant
  /-- The seed of a rendering for which none is given. -/
  seed : UInt32

structure Printed where
  output : Text := []
  messages : Text := []
  deriving DecidableEq

/-- An activity that prints, uses files and may fail. -/
abbrev Activity (m : Type → Type) (α : Type) := ExceptT Failure (StateT Printed m) α

namespace Activity

variable {m : Type → Type} [Monad m] [FileAccess m]

def access {α : Type} (action : m α) : Activity m α := ExceptT.lift (StateT.lift action)

def print (line : Text) : Activity m Unit :=
  modify fun p => { p with output := p.output ++ line ++ ['\n'] }

def report (ds : List Diagnostic) : Activity m Unit :=
  modify fun p => { p with messages := p.messages ++ ds.flatMap fun d => d.toText ++ ['\n'] }

/-! ## Inputs -/

def readInput (path : Text) : Activity m Text := do
  match ← access (FileAccess.readText path) with
  | .ok t => return t
  | .error cause => throw (.unreadable path cause)

/-- Reads the variables from a file that must hold a JSON object. -/
def readVariables (path : Text) : Activity m Context := do
  match Json.read? (← readInput path) with
  | some (.object members) => return Context.ofJson (.object members)
  | some _ => throw (.notObject path)
  | none => throw (.notJson path)

/-- Reads the pattern library. -/
def readLibrary (path : Option Text) : Activity m PatternLibrary := do
  match path with
  | none => return Pattern.builtin
  | some path =>
    match PatternLibrary.ofFile path (← access (FileAccess.readText path)) with
    | .ok l => return l
    | .error cause => throw (.badLibrary path cause)

/-- Reads the rule set; what is wrong with it is reported. -/
def readRules (path : Option Text) : Activity m RuleSet := do
  match path with
  | none => return RuleSet.builtin
  | some path =>
    match RuleSet.ofFile (← access (FileAccess.readText path)) with
    | .ok r => return r
    | .error cause =>
      report [cause.toDiagnostic]
      throw (.badRules path cause)

/-- The settings of a rendering. -/
def readRenderer (o : RenderOptions) (moment : Moment) : Activity m Renderer := do
  let library ← readLibrary o.patterns
  return ⟨library, o.seed.getD moment.seed, o.depthLimit.getD defaultDepthLimit⟩

/-! ## Results -/

/-- Writes a text to a file, making the directory that it goes to. -/
def writeFile (path content : Text) : Activity m Unit := do
  if let some directory := Path.parent? path then
    unless ← access (FileAccess.makeDirectory directory) do throw (.noDirectory directory)
  unless ← access (FileAccess.writeText path content) do throw (.notWritten path)

/-- Writes a text to a file, or else to the output. -/
def writeResult (path : Option Text) (content : Text) : Activity m Unit :=
  match path with
  | some path => writeFile path content
  | none => print content

/-- The line with the score and its parts. -/
def scoreLine (v : Verdict) : Text :=
  let q := v.quality
  "score " ++ Decimal.fixed 3 v.score ++ " (coverage " ++ Decimal.fixed 2 q.coverage ++
    ", freshness " ++ Decimal.fixed 2 q.freshness ++ ", structure " ++ Decimal.fixed 2 q.outline ++
    ", originality " ++ Decimal.fixed 2 q.originality ++ ", geo " ++ Decimal.fixed 2 q.geo ++ ")"

def printVerdict (v : Verdict) : Activity m Unit := do
  report (v.errors ++ v.warnings)
  print (scoreLine v)
  for suggestion in v.suggestions do print ("  - " ++ suggestion)
  print (if v.isValid then "PASS" else "BLOCKED")

/-- Puts out a verdict; the exit code tells it as well. -/
def giveVerdict (asJson : Bool) (v : Verdict) : Activity m Nat := do
  if asJson then print v.toJson.pretty else printVerdict v
  return if v.isValid then 0 else 1

/-! ## Commands -/

def render (moment : Moment) (template : Text) (o : RenderOptions) (structured : Bool)
    (output : Option Text) : Activity m Nat := do
  let source ← readInput template
  let context ← readVariables o.vars
  let renderer ← readRenderer o moment
  if structured then
    match renderer.renderStructured? context source with
    | some v => writeResult output v.pretty
    | none => throw (.notStructured template)
  else
    let page := renderer.render context source
    report page.diagnostics
    writeResult output page.text
  return 0

def lint (moment : Moment) (content vars : Text) (gate : GateOptions) : Activity m Nat := do
  let page ← readInput content
  let context ← readVariables vars
  let rules ← readRules gate.rules
  giveVerdict gate.asJson (rules.judge page gate.type context moment.now)

def generate (moment : Moment) (template : Text) (o : RenderOptions) (gate : GateOptions)
    (output : Option Text) : Activity m Nat := do
  let source ← readInput template
  let context ← readVariables o.vars
  let renderer ← readRenderer o moment
  let rules ← readRules gate.rules
  let page := renderer.render context source
  -- A page is kept even if it is blocked.
  if let some path := output then writeFile path page.text
  giveVerdict gate.asJson (rules.judgeReport page gate.type context moment.now)

def explain (code : Text) : Activity m Nat := do
  let code := Text.upper (Text.trim code)
  match Catalog.find? code with
  | none => throw (.unknownCode code)
  | some entry =>
    print (code ++ ": " ++ entry.title)
    print ("subsystem: " ++ entry.subsystem)
    print ("since: " ++ entry.since)
    print []
    print entry.message
    return 0

def ofCommand (moment : Moment) : Command → Activity m Nat
  | .render template o structured output => render moment template o structured output
  | .lint content vars gate => lint moment content vars gate
  | .generate template o gate output => generate moment template o gate output
  | .explain code => explain code

end Activity

/-! ## Runs -/

/-- How a run ended. -/
structure Outcome where
  exit : Nat
  printed : Printed
  deriving DecidableEq

def Outcome.ofResult : Except Failure Nat × Printed → Outcome
  | (.ok exit, printed) => ⟨exit, printed⟩
  | (.error failure, printed) =>
    ⟨1, { printed with messages := printed.messages ++ "Error: " ++ failure.message ++ "\n" }⟩

def runProgram {m : Type → Type} [Monad m] [FileAccess m] (moment : Moment)
    (arguments : List Text) : m Outcome := do
  match Request.parse? arguments with
  | none => return ⟨2, { messages := "error: unusable arguments\n\n" ++ Help.overallUsage }⟩
  | some (.help topic) => return ⟨0, { output := Help.onTopic topic }⟩
  | some .version => return ⟨0, { output := Help.version }⟩
  | some (.run command) =>
    return Outcome.ofResult (← (Activity.ofCommand moment command).run.run {})

end PagePress
