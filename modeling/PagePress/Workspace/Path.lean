/-
  PagePress.Workspace.Path

  Paths to files as text.

  A path names directories from the outside in, with slashes between the
  names.  Empty names and single points stand for the directory reached so
  far, two points for the one around it.  A path that starts with a slash
  starts at the outermost directory.
-/

import PagePress.Text.Basic

namespace PagePress.Path

/-- A name that stands for the directory reached so far. -/
def staysPut (name : Text) : Bool := name.isEmpty || name == ['.']

/-- The number of bytes from which on a name is too long. -/
def nameLimit : Nat := 256

/-- The number of bytes from which on a path is too long. -/
def pathLimit : Nat := 4096

/-- Whether a name can be that of a file or directory. -/
def isName (name : Text) : Bool :=
  !staysPut name && name != ['.', '.'] && Text.bytes name < nameLimit

/-- Whether a path is short enough. -/
def isPath (path : Text) : Bool := Text.bytes path < pathLimit

/-- Names without those at the end that stay put. -/
def dropStays (names : List Text) : List Text := (names.reverse.dropWhile staysPut).reverse

/-- The path of the directory that the last name of a path is looked up in, as far as the path
    names it; none if it names no directory. -/
def parent? (path : Text) : Option Text :=
  match Text.splitOn '/' path with
  | [] => none
  | first :: names =>
    match dropStays names with
    | [] => none
    | name :: more =>
      match dropStays (name :: more).dropLast with
      | [] => if first.isEmpty then some ['/'] else some first
      | names => some (List.intercalate ['/'] (first :: names))

end PagePress.Path
