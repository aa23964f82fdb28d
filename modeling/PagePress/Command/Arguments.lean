/-
  PagePress.Command.Arguments

  Reading the arguments of the command line.

  Arguments are taken from left to right.  The first that does not fit makes
  the whole line unusable; a request for help that comes before it is
  answered.  The value of an option is the next argument, unless that starts
  with a hyphen, or the rest of the same argument.  After two hyphens alone
  there are only operands.
-/

import PagePress.Command.Basic

namespace PagePress

/-- What a command line asks for. -/
inductive Request where
  | run (command : Command)
  | help (topic : HelpTopic)
  | version
  deriving DecidableEq

namespace Arguments

/-! ## Values -/

/-- The number that a sign and digits stand for, if it is below a limit. -/
def number? (limit : Nat) (negative : Bool) (digits : Text) : Option Nat :=
  let n := Text.natOfDigits digits
  -- After a minus sign there is only zero.
  if digits.isEmpty || !digits.all Text.isDigit || limit ≤ n || (negative && n != 0) then none
  else some n

def seed? : Text → Option UInt32
  | '-' :: digits => (number? (Nat.pow 2 32) true digits).map UInt32.ofNat
  | '+' :: digits => (number? (Nat.pow 2 32) false digits).map UInt32.ofNat
  | digits => (number? (Nat.pow 2 32) false digits).map UInt32.ofNat

def depth? : Text → Option Nat
  | '+' :: digits => number? (Nat.pow 2 64) false digits
  | digits => number? (Nat.pow 2 64) false digits

def accepts : OptionKind → Text → Bool
  | .flag, _ => true
  | .text, _ => true
  | .path, t => !t.isEmpty
  | .seed, t => (seed? t).isSome
  | .depth, t => (depth? t).isSome

/-! ## Scanning -/

/-- What has been given so far. -/
structure Given where
  operand : Option Text := none
  options : List (Text × Text) := []

/-- Why scanning ends early. -/
inductive Stop where
  | misuse
  | help

def Given.addOption (g : Given) (o : OptionForm) (value : Text) : Except Stop Given :=
  if (g.options.lookup o.name).isSome || !accepts o.kind value then .error .misuse
  else .ok { g with options := (o.name, value) :: g.options }

def Given.addOperand (g : Given) (f : CommandForm) (value : Text) : Except Stop Given :=
  if g.operand.isSome || !accepts f.operandKind value then .error .misuse
  else .ok { g with operand := some value }

/-- Whether an argument starts with a hyphen that makes it an option. -/
def isOption (argument : Text) : Bool := argument.head? == some '-' && argument != ['-']

/-- The name of a long option, and the value given with it. -/
def splitLong (t : Text) : Text × Option Text :=
  match t.dropWhile (· != '=') with
  | [] => (t, none)
  | _ :: value => (t.takeWhile (· != '='), some value)

/-- The value given with the letter of an option. -/
def attached : Text → Option Text
  | [] => none
  | '=' :: value => some value
  | value => some value

/-- An argument that starts with a hyphen: the option it names and the value given with it, or a
    reason to stop. -/
def option (f : CommandForm) : Text → Except Stop (OptionForm × Option Text)
  | '-' :: '-' :: t =>
    match f.optionNamed? (splitLong t).1, (splitLong t).2 with
    | some o, value => .ok (o, value)
    | none, none => if t = "help" then .error .help else .error .misuse
    | none, some _ => .error .misuse
  | '-' :: letter :: t =>
    match f.optionLettered? letter with
    | some o => .ok (o, attached t)
    | none => if letter = 'h' then .error .help else .error .misuse
  | _ => .error .misuse

/-- Scanning in progress. -/
structure Scan where
  given : Given
  /-- The option whose value comes next. -/
  awaiting : Option OptionForm := none
  operandsOnly : Bool := false

def Scan.resume (g : Except Stop Given) : Except Stop Scan := g.map fun g => { given := g }

def Scan.takeOption (f : CommandForm) (s : Scan) (argument : Text) : Except Stop Scan :=
  match option f argument with
  | .error stop => .error stop
  | .ok (o, value) =>
    match o.kind == .flag, value with
    | true, none => resume (s.given.addOption o [])
    | true, some _ => .error .misuse
    | false, some value => resume (s.given.addOption o value)
    | false, none => .ok { s with awaiting := some o }

/-- Takes an argument. -/
def Scan.step (f : CommandForm) (s : Scan) (argument : Text) : Except Stop Scan :=
  if s.operandsOnly then
    (s.given.addOperand f argument).map fun g => { s with given := g }
  else
    match s.awaiting with
    | some o =>
      -- A value that starts with a hyphen has to be part of the argument of its option.
      if isOption argument then .error .misuse else resume (s.given.addOption o argument)
    | none =>
      if argument = ['-', '-'] then .ok { s with operandsOnly := true }
      else if isOption argument then s.takeOption f argument
      else resume (s.given.addOperand f argument)

def scan (f : CommandForm) (arguments : List Text) : Except Stop Given :=
  match arguments.foldlM (Scan.step f) { given := {} } with
  | .error stop => .error stop
  | .ok s => if s.awaiting.isSome then .error .misuse else .ok s.given

/-! ## Commands -/

namespace Given

/-- The value of an option. -/
def value? (g : Given) (name : Text) : Option Text := g.options.lookup name

def has (g : Given) (name : Text) : Bool := (g.value? name).isSome

def renderOptions? (g : Given) : Option RenderOptions := do
  return {
    vars := ← g.value? "vars"
    seed := (g.value? "seed").bind seed?
    patterns := g.value? "patterns"
    depthLimit := (g.value? "max-pattern-depth").bind depth? }

def gateOptions? (g : Given) : Option GateOptions := do
  return { type := ← g.value? "type", rules := g.value? "rules", asJson := g.has "json" }

/-- The command of a form, if nothing that it requires is missing. -/
def command? (g : Given) (f : CommandForm) : Option Command := do
  let operand ← g.operand
  if f.name = "render" then
    return .render operand (← g.renderOptions?) (g.has "structured") (g.value? "output")
  else if f.name = "lint" then return .lint operand (← g.value? "vars") (← g.gateOptions?)
  else if f.name = "generate" then
    return .generate operand (← g.renderOptions?) (← g.gateOptions?) (g.value? "output")
  else return .explain operand

end Given

/-- Reads the arguments after the name of a command. -/
def ofForm? (f : CommandForm) (arguments : List Text) : Option Request :=
  match scan f arguments with
  | .ok g => (g.command? f).map .run
  | .error .help => some (.help (.command f))
  | .error .misuse => none

end Arguments

namespace Request

/-- Reads an argument before the name of a command: a request for help or for the version. -/
def ofGlobal? : Text → Option Request
  | '-' :: '-' :: name =>
    if name = "help" then some (.help .overall)
    else if name = "version" then some .version
    else none
  | '-' :: 'h' :: _ => some (.help .overall)
  | '-' :: 'V' :: _ => some .version
  | _ => none

/-- Reads a command line; none if it is unusable. -/
def parse? : List Text → Option Request
  | [] => none
  | first :: rest =>
    match CommandForm.ofName? first with
    | some f => Arguments.ofForm? f rest
    | none =>
      if first = "help" then (HelpTopic.ofNames? rest).map .help else ofGlobal? first

end Request

end PagePress
