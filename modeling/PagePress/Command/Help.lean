/-
  PagePress.Command.Help

  The help texts.

  They follow from the forms of the commands: a summary, the usage, and
  tables of what may be given.  The meanings in a table stand in an aligned
  second column if the terms leave enough of the line for them, and otherwise
  each on a line of its own.
-/

import PagePress.Command.Basic

namespace PagePress.Help

def program : Text := "localgen"

def version : Text := program ++ " 0.1.0\n"

/-- A row of a table: what is given, and what it means. -/
structure Row where
  term : Text
  meaning : Text

/-- The number of characters that fit in a line. -/
def lineWidth : Nat := 100

def termWidth (rows : List Row) : Nat := (rows.map fun r => r.term.length).foldl max 0

/-- Whether the meanings in a table stand on lines of their own. -/
def isStacked (rows : List Row) : Bool :=
  -- Twelve characters of space stand around a term.
  let taken := termWidth rows + 12
  -- More than two fifths of a line is taken, and some meaning does not fit in the rest.
  2 * lineWidth < 5 * taken && taken ≤ lineWidth &&
    rows.any fun r => lineWidth - taken < r.meaning.length

/-- What stands between a term and its meaning, given the width of the terms if the meanings are
    aligned. -/
def gap (width : Option Nat) (term : Text) : Text :=
  match width with
  | some width => List.replicate (width - term.length + 2) ' '
  | none => '\n' :: List.replicate 10 ' '

/-- A table of rows under a heading. -/
def table (heading : Text) (rows : List Row) : Text :=
  let width := if isStacked rows then none else some (termWidth rows)
  let line (r : Row) : Text := "  " ++ r.term ++ gap width r.term ++ r.meaning ++ "\n"
  heading ++ ":\n" ++ rows.flatMap line

/-- The name of a value between angle brackets. -/
def angled (name : Text) : Text := '<' :: (name ++ ['>'])

/-- What is written for an option. -/
def optionTerm (o : OptionForm) : Text :=
  let letter := match o.letter with
    | some c => ['-', c, ',', ' ']
    | none => "    ".toList
  let value := if o.kind == .flag then [] else ' ' :: angled o.valueName
  letter ++ "--" ++ o.name ++ value

def helpRow : Row := ⟨"-h, --help", "Print help"⟩

/-- The options that cannot be left out, as in the usage. -/
def requiredOptions (f : CommandForm) : Text :=
  (f.options.filter (·.required)).flatMap fun o =>
    "--" ++ o.name ++ " " ++ angled o.valueName ++ " "

/-- The usage of a command. -/
def usage (f : CommandForm) : Text :=
  let optional := if f.options.all (·.required) then [] else "[OPTIONS] ".toList
  "Usage: " ++ program ++ " " ++ f.name ++ " " ++ optional ++ requiredOptions f ++
    angled f.operandName ++ "\n"

def command (f : CommandForm) : Text :=
  let options := f.options.map fun o => Row.mk (optionTerm o) o.help
  f.about ++ "\n\n" ++ usage f ++ "\n" ++
    table "Arguments" [⟨angled f.operandName, f.operandHelp⟩] ++ "\n" ++
    table "Options" (options ++ [helpRow])

def overallUsage : Text := "Usage: " ++ program ++ " <COMMAND>\n"

/-- What the command that asks for help does. -/
def about : Text := "Print this message or the help of the given subcommand(s)"

def overall : Text :=
  let commands := CommandForm.all.map fun f => Row.mk f.name f.about
  "Render and lint local content pages\n\n" ++ overallUsage ++ "\n" ++
    table "Commands" (commands ++ [⟨"help", about⟩]) ++ "\n" ++
    table "Options" [helpRow, ⟨"-V, --version", "Print version"⟩]

def onHelp : Text :=
  about ++ "\n\nUsage: " ++ program ++ " help [COMMAND]...\n\n" ++
    table "Arguments" [⟨"[COMMAND]...", "Print help for the subcommand(s)"⟩]

def onTopic : HelpTopic → Text
  | .overall => overall
  | .command f => command f
  | .help => onHelp

end PagePress.Help
