/-
  PagePress.Workspace.Basic

  Access to files, and a tree of files in memory.

  The commands read and write files through `FileAccess` alone, so that they
  can be run on the files of a machine as well as on a `Workspace`.
-/

import PagePress.Workspace.Path

namespace PagePress

/-- Why a file cannot be read as text. -/
inductive ReadError where
  | missing
  /-- A file is in the place of a directory on the way. -/
  | notDirectory
  | isDirectory
  /-- A name on the way, or the whole path, is too long. -/
  | nameTooLong
  /-- What it holds is not text in UTF-8. -/
  | notText
  deriving DecidableEq

def ReadError.message : ReadError → Text
  | missing => "No such file or directory (os error 2)"
  | notDirectory => "Not a directory (os error 20)"
  | nameTooLong => "File name too long (os error 36)"
  | isDirectory => "Is a directory (os error 21)"
  | notText => "stream did not contain valid UTF-8"

/-- What a command needs of the files of its surroundings. -/
class FileAccess (m : Type → Type) where
  /-- The text in the file at a path. -/
  readText : Text → m (Except ReadError Text)
  /-- Makes the directory at a path and those around it, as far as they are missing; whether it is
      there in the end. -/
  makeDirectory : Text → m Bool
  /-- Puts text into the file at a path in place of what it may hold; whether that worked. -/
  writeText : Text → Text → m Bool

/-! ## Trees of files -/

/-- A place in a tree: the names on the way to it, innermost first. -/
abbrev Place := List Text

/-- A tree of files. -/
structure Workspace where
  /-- The directories, the outermost one aside. -/
  directories : List Place
  /-- The files with what they hold; nothing stands for what is no text. -/
  files : List (Place × Option Text)
  /-- The directory in which paths start. -/
  home : Place
  deriving DecidableEq

namespace Workspace

def isDirectory (w : Workspace) (p : Place) : Bool := p.isEmpty || w.directories.contains p

def file? (w : Workspace) (p : Place) : Option (Option Text) := w.files.lookup p

/-- The directory that a path starts in. -/
def startOf (w : Workspace) : List Text → Place
  -- A slash at the start leaves an empty name before it.
  | [] :: _ :: _ => []
  | _ => w.home

/-- The place of the directory or file that names lead to from the directory at a place, or why
    they lead nowhere. -/
def find (w : Workspace) (p : Place) : List Text → Except ReadError Place
  | [] => .ok p
  | name :: names =>
    if Path.staysPut name then find w p names
    else if name = ['.', '.'] then find w p.tail names
    else if !Path.isName name then .error .nameTooLong
    else if w.isDirectory (name :: p) then find w (name :: p) names
    else if (w.file? (name :: p)).isSome then
      -- Even a slash after the name of a file asks for a directory.
      if names.isEmpty then .ok (name :: p) else .error .notDirectory
    else .error .missing

def read (w : Workspace) (path : Text) : Except ReadError Text :=
  if path.isEmpty then .error .missing
  else if !Path.isPath path then .error .nameTooLong
  else
    let names := Text.splitOn '/' path
    match w.find (w.startOf names) names with
    | .error cause => .error cause
    | .ok p =>
      match w.file? p with
      | some (some t) => .ok t
      | some none => .error .notText
      | none => .error .isDirectory

/-- The place of the file that a path is for, whether or not there is one: the directories on the
    way are there, and the path ends with the name of something inside them. -/
def place? (w : Workspace) (path : Text) : Option Place :=
  let names := Text.splitOn '/' path
  match names.getLast?, w.find (w.startOf names) names.dropLast with
  | some name, .ok p =>
    if Path.isPath path ∧ Path.isName name ∧ w.isDirectory p then some (name :: p) else none
  | _, _ => none

/-- Makes the directories that names lead through, from a place on; none if a file is in the way
    or a name is too long. -/
def make (w : Workspace) (p : Place) : List Text → Option Workspace
  | [] => some w
  | name :: names =>
    if Path.staysPut name then make w p names
    else if name = ['.', '.'] then make w p.tail names
    else if w.isDirectory (name :: p) then make w (name :: p) names
    else if !Path.isName name ∨ (w.file? (name :: p)).isSome then none
    else make { w with directories := (name :: p) :: w.directories } (name :: p) names

/-- Makes the directory at a path. -/
def makeDirectory? (w : Workspace) (path : Text) : Option Workspace :=
  let names := Text.splitOn '/' path
  if Path.isPath path then w.make (w.startOf names) names else none

/-- Puts text into the file at a place. -/
def put (w : Workspace) (p : Place) (content : Option Text) : Workspace :=
  { w with files := (p, content) :: w.files.filter fun f => f.1 != p }

/-- Puts text into the file at a path; none if a directory is missing or in the way. -/
def write? (w : Workspace) (path content : Text) : Option Workspace := do
  let p ← w.place? path
  if w.isDirectory p then none else some (w.put p (some content))

/-- The workspace with its working directory inside the outermost one, and no file. -/
def empty : Workspace := ⟨[["work".toList]], [], ["work".toList]⟩

/-- Adds a file under a path, with the directories around it. -/
def add (w : Workspace) (path : Text) (content : Option Text) : Workspace :=
  let made := ((Path.parent? path).bind w.makeDirectory?).getD w
  match made.place? path with
  | some p => made.put p content
  | none => made

/-- Does a change if it is possible; whether it was. -/
def tryChange (change : Workspace → Option Workspace) : StateM Workspace Bool :=
  modifyGet fun w =>
    match change w with
    | some changed => (true, changed)
    | none => (false, w)

instance : FileAccess (StateM Workspace) where
  readText path := do return (← get).read path
  makeDirectory path := tryChange fun w => w.makeDirectory? path
  writeText path content := tryChange fun w => w.write? path content

end Workspace

end PagePress
