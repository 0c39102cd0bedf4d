import FilterQuery.Text.Blank

/-!
# Paths

Paths are texts with slashes between their components. A path that a user gives is expanded:
blanks around it are dropped, a tilde stands for the home directory, and a relative path belongs to
the current directory. Nothing else is changed; in particular `..` stays.
-/

namespace FilterQuery

/-- The directories that paths are relative to. -/
structure Places where
  /-- The home directory of the user. -/
  home : String
  /-- The current directory. -/
  current : String
deriving DecidableEq, Repr

namespace Path

/-- Whether a path begins at the root directory. -/
def isAbsolute (path : List Char) : Bool :=
  path.head? == some '/'

/-- A path below another one. An absolute path takes the place of the other. -/
def join (base path : List Char) : List Char :=
  if isAbsolute path then path
  else if base.isEmpty || base.getLast? == some '/' then base ++ path
  else base ++ '/' :: path

/-- A path with the home directory in the place of a leading tilde that is a component of its
own. -/
def expandHome (home path : List Char) : List Char :=
  match path with
  | ['~'] => home
  | '~' :: '/' :: rest => join home rest
  | '~' :: '\\' :: rest => join home rest
  | path => path

/-- The absolute path that a user means, as characters. -/
def expandChars (home current path : List Char) : List Char :=
  match Text.trim path with
  | [] => current
  | trimmed =>
    let expanded := expandHome home trimmed
    if isAbsolute expanded then expanded else join current expanded

/-- The absolute path that a user means. -/
def expand (places : Places) (path : String) : String :=
  String.ofList (expandChars places.home.toList places.current.toList path.toList)

/-- A path below another one. -/
def below (base path : String) : String :=
  String.ofList (join base.toList path.toList)

end Path

end FilterQuery
