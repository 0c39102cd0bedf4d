import FilterQuery.Statement.Dialect
import FilterQuery.Value

/-!
# Fragments of statements

A fragment is SQL with values standing in it: a list of pieces of text and of values. Its text has
a marker in the place of each value, numbered on from the values that come before the fragment;
its parameters are the values in order. So the markers of a fragment and its parameters belong
together by construction, and appending fragments appends both.
-/

namespace FilterQuery

/-- A piece of a statement. -/
inductive Piece where
  /-- A piece of SQL. -/
  | text (sql : String)
  /-- A value, in whose place a marker is written. -/
  | value (parameter : Parameter)

/-- SQL with values standing in it. -/
abbrev Fragment := List Piece

namespace Fragment

/-- The fragment of a piece of SQL. -/
def ofText (sql : String) : Fragment :=
  [.text sql]

/-- The fragment of a value. -/
def ofValue (parameter : Parameter) : Fragment :=
  [.value parameter]

/-- The values of a fragment, in order. -/
def parameters : Fragment → List Parameter
  | [] => []
  | .text _ :: ps => parameters ps
  | .value v :: ps => v :: parameters ps

/-- The text of a fragment that a number of values come before. -/
def sql (d : Dialect) (start : Nat) : Fragment → String
  | [] => ""
  | .text s :: ps => s ++ sql d start ps
  | .value _ :: ps => d.marker (start + 1) ++ sql d (start + 1) ps

/-- Fragments with a separator between them. -/
def separated (separator : String) : List Fragment → Fragment
  | [] => []
  | [f] => f
  | f :: fs => f ++ .text separator :: separated separator fs

/-- Several fragments as one: a text when there is none, a lone one as it is, and otherwise all of
them in parentheses with a separator. -/
def grouped (separator identity : String) : List Fragment → Fragment
  | [] => ofText identity
  | [f] => f
  | fs => .text "(" :: separated separator fs ++ [.text ")"]

@[simp] theorem parameters_append (a b : Fragment) :
    parameters (a ++ b) = parameters a ++ parameters b := by
  induction a with
  | nil => rfl
  | cons p ps ih => cases p <;> simp [parameters, ih]

theorem sql_append (d : Dialect) (start : Nat) (a b : Fragment) :
    sql d start (a ++ b) = sql d start a ++ sql d (start + a.parameters.length) b := by
  induction a generalizing start with
  | nil => simp [sql, parameters]
  | cons p ps ih =>
    cases p with
    | text s => simp [sql, parameters, ih, String.append_assoc]
    | value v =>
      simp [sql, parameters, ih, String.append_assoc, Nat.add_assoc, Nat.add_comm 1]

end Fragment

end FilterQuery
