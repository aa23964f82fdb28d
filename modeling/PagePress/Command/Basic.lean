/-
  PagePress.Command.Basic

  The commands and their options.

  A form describes what can follow the name of a command: one operand, and
  options, each given at most once.  The help texts and the reading of
  arguments both go by the forms.
-/

import PagePress.Text.Basic

namespace PagePress

/-! ## Commands -/

structure RenderOptions where
  vars : Text
  seed : Option UInt32
  /-- The file with the pattern library, in place of the built-in one. -/
  patterns : Option Text
  depthLimit : Option Nat
  deriving DecidableEq

/-- The options of a verdict. -/
structure GateOptions where
  type : Text
  /-- The file with the rule set, in place of the built-in one. -/
  rules : Option Text
  asJson : Bool
  deriving DecidableEq

inductive Command where
  | render (template : Text) (options : RenderOptions) (structured : Bool) (output : Option Text)
  | lint (content vars : Text) (gate : GateOptions)
  | generate (template : Text) (options : RenderOptions) (gate : GateOptions)
      (output : Option Text)
  | explain (code : Text)
  deriving DecidableEq

/-! ## Forms -/

/-- What may be given for an option. -/
inductive OptionKind where
  /-- Nothing; the option stands for itself. -/
  | flag
  | text
  | path
  | seed
  | depth
  deriving DecidableEq

structure OptionForm where
  /-- The name after two hyphens. -/
  name : Text
  /-- The letter after one hyphen. -/
  letter : Option Char := none
  kind : OptionKind
  /-- What the help calls the value of the option. -/
  valueName : Text := []
  required : Bool := false
  help : Text
  deriving DecidableEq

/-- What can follow the name of a command. -/
structure CommandForm where
  name : Text
  about : Text
  operandName : Text
  operandKind : OptionKind
  operandHelp : Text
  options : List OptionForm
  deriving DecidableEq

namespace CommandForm

def renderForms : List OptionForm :=
  [{ name := "vars", kind := .path, valueName := "VARS", required := true,
     help := "Variables as a JSON object file" },
   { name := "seed", kind := .seed, valueName := "SEED",
     help := "Selection seed (defaults to one derived from the clock)" },
   { name := "patterns", kind := .path, valueName := "PATTERNS",
     help := "Pattern library file (.json or .toml) replacing the built-in one" },
   { name := "max-pattern-depth", kind := .depth, valueName := "MAX_PATTERN_DEPTH",
     help := "Maximum nesting of pattern expansions" }]

def gateForms : List OptionForm :=
  [{ name := "type", letter := some 't', kind := .text, valueName := "CONTENT_TYPE",
     required := true, help := "Content type (place, event, area-hub, area-cluster, blog)" },
   { name := "rules", kind := .path, valueName := "RULES",
     help := "Rule set TOML file replacing the built-in rules" },
   { name := "json", kind := .flag, help := "Print the verdict as JSON" }]

def render : CommandForm where
  name := "render"
  about := "Render a template with variables"
  operandName := "TEMPLATE"
  operandKind := .path
  operandHelp := "Template file"
  options := renderForms ++
    [{ name := "structured", kind := .flag,
       help := "Parse the output as JSON and drop empty fields" },
     { name := "output", letter := some 'o', kind := .path, valueName := "OUTPUT",
       help := "Write output to FILE instead of stdout" }]

def lint : CommandForm where
  name := "lint"
  about := "Lint rendered content against the publish rules"
  operandName := "CONTENT"
  operandKind := .path
  operandHelp := "Content file"
  options :=
    { name := "vars", kind := .path, valueName := "VARS", required := true,
      help := "Variables as a JSON object file" } :: gateForms

def generate : CommandForm where
  name := "generate"
  about := "Render a template, then lint the result"
  operandName := "TEMPLATE"
  operandKind := .path
  operandHelp := "Template file"
  options := renderForms ++ gateForms ++
    [{ name := "output", letter := some 'o', kind := .path, valueName := "OUTPUT",
       help := "Also write the rendered page to FILE" }]

def explain : CommandForm where
  name := "explain"
  about := "Describe a diagnostic code such as L-2-1"
  operandName := "CODE"
  operandKind := .text
  operandHelp := "Diagnostic code"
  options := []

def all : List CommandForm := [render, lint, generate, explain]

def ofName? (name : Text) : Option CommandForm := all.find? fun f => f.name == name

def optionNamed? (f : CommandForm) (name : Text) : Option OptionForm :=
  f.options.find? fun o => o.name == name

def optionLettered? (f : CommandForm) (letter : Char) : Option OptionForm :=
  f.options.find? fun o => o.letter == some letter

end CommandForm

/-- What help can be asked for. -/
inductive HelpTopic where
  | overall
  | command (form : CommandForm)
  | help
  deriving DecidableEq

/-- The topic that names tell. -/
def HelpTopic.ofNames? : List Text → Option HelpTopic
  | [] => some .overall
  | [name] => if name = "help" then some .help else (CommandForm.ofName? name).map .command
  | _ => none

end PagePress
