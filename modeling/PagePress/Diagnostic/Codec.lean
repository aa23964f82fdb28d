/-
  PagePress.Diagnostic.Codec

  Diagnostics as JSON.

  Written, an absent code or problem and an empty list of details or hints
  are left out.  Read, an object may have further members, which are ignored,
  but no member of a diagnostic twice; an array holds the fields in their
  order, those at the end that may be left out excepted.
-/

import PagePress.Diagnostic.Basic
import PagePress.Json.Value

namespace PagePress

/-! ## Writing -/

def Severity.name : Severity → Text
  | .error => "error"
  | .warning => "warning"

def DetailKind.name : DetailKind → Text
  | .error => "error"
  | .info => "info"

def Detail.toJson (d : Detail) : Json :=
  .object [("kind", .string d.kind.name), ("content", .string d.content)]

def Json.member (key : Text) (value : Json) : Text × Json := (key, value)

/-- The member for a text that may be absent. -/
def Json.optionalMember (key : Text) : Option Text → List (Text × Json)
  | some t => [member key (.string t)]
  | none => []

/-- The member for a list that is left out when it is empty. -/
def Json.listMember (key : Text) : List Json → List (Text × Json)
  | [] => []
  | items => [member key (.array items)]

def Diagnostic.toJson (d : Diagnostic) : Json :=
  .object (Json.optionalMember "code" d.code ++
    [Json.member "title" (.string d.title), Json.member "kind" (.string d.severity.name)] ++
    Json.optionalMember "problem" d.problem ++
    Json.listMember "details" (d.details.map Detail.toJson) ++
    Json.listMember "hints" (d.hints.map Json.string))

/-! ## Reading records -/

namespace Json

/-- The value of a field that stands in an object at most once: `none` if it is repeated, and
    `some none` if it is missing. -/
def field? (key : Text) (members : List (Text × Json)) : Option (Option Json) :=
  match members.filter (fun m => m.1 == key) with
  | [] => some none
  | [(_, v)] => some (some v)
  | _ => none

def asText? : Json → Option Text
  | .string t => some t
  | _ => none

def asTexts? : Json → Option (List Text)
  | .array items => items.mapM asText?
  | _ => none

def asNullableText? : Json → Option (Option Text)
  | .null => some none
  | .string t => some (some t)
  | _ => none

/-- The name of a choice: a string, or an object whose only member has that name and the value
    null. -/
def asChoice? : Json → Option Text
  | .string t => some t
  | .object [(name, .null)] => some name
  | _ => none

end Json

/-! ## Reading diagnostics -/

def Severity.ofName? (name : Text) : Option Severity :=
  if name = Severity.error.name then some .error
  else if name = Severity.warning.name then some .warning
  else none

def DetailKind.ofName? (name : Text) : Option DetailKind :=
  if name = DetailKind.error.name then some .error
  else if name = DetailKind.info.name then some .info
  else none

def Detail.ofFields? (kind content : Json) : Option Detail := do
  let kind ← DetailKind.ofName? (← kind.asChoice?)
  return ⟨kind, ← content.asText?⟩

def Detail.ofJson? : Json → Option Detail
  | .object members => do
    let kind ← Json.field? "kind" members
    let content ← Json.field? "content" members
    Detail.ofFields? (← kind) (← content)
  | .array [kind, content] => Detail.ofFields? kind content
  | _ => none

def Detail.listOfJson? : Json → Option (List Detail)
  | .array items => items.mapM Detail.ofJson?
  | _ => none

/-- Reads a diagnostic from its fields; the details and the hints may be missing. -/
def Diagnostic.ofFields? (code title kind problem : Json) (details hints : Option Json) :
    Option Diagnostic := do
  let code ← code.asNullableText?
  let title ← title.asText?
  let severity ← Severity.ofName? (← kind.asChoice?)
  let problem ← problem.asNullableText?
  let details ← match details with
    | some v => Detail.listOfJson? v
    | none => some []
  let hints ← match hints with
    | some v => v.asTexts?
    | none => some []
  return { code, title, severity, problem, details, hints }

def Diagnostic.ofJson? : Json → Option Diagnostic
  | .object members => do
    let code ← Json.field? "code" members
    let title ← Json.field? "title" members
    let kind ← Json.field? "kind" members
    let problem ← Json.field? "problem" members
    let details ← Json.field? "details" members
    let hints ← Json.field? "hints" members
    Diagnostic.ofFields? (code.getD .null) (← title) (← kind) (problem.getD .null) details hints
  | .array (code :: title :: kind :: problem :: more) =>
    match more with
    | [] => Diagnostic.ofFields? code title kind problem none none
    | [details] => Diagnostic.ofFields? code title kind problem (some details) none
    | [details, hints] => Diagnostic.ofFields? code title kind problem (some details) (some hints)
    | _ => none
  | _ => none

end PagePress
