/-!
# Dialects of SQL

The databases for which statements are written, and the places in which their dialects differ:
parameter markers, matching without regard to case, and the order of nulls.
-/

namespace FilterQuery

/-- A database for which statements are written. -/
inductive Dialect where
  /-- SQLite. -/
  | sqlite
  /-- PostgreSQL. -/
  | postgres
deriving DecidableEq, Repr

namespace Dialect

/-- The name of a dialect. -/
def name : Dialect → String
  | .sqlite => "sqlite"
  | .postgres => "postgres"

/-- The marker of the parameter with a number, counted from one. -/
def marker : Dialect → Nat → String
  | .sqlite, _ => "?"
  | .postgres, n => s!"${n}"

/-- The word that negates a test, or nothing. -/
def negation (negated : Bool) : String :=
  if negated then "NOT " else ""

/-- The text before and after the pattern in a test of a column against a pattern. -/
def likeAround (d : Dialect) (column : String) (ignoreCase negated : Bool) : String × String :=
  match d, ignoreCase with
  | .sqlite, true => ("LOWER(" ++ column ++ ") " ++ negation negated ++ "LIKE LOWER(", ")")
  | .postgres, true => (column ++ " " ++ negation negated ++ "ILIKE ", "")
  | _, false => (column ++ " " ++ negation negated ++ "LIKE ", "")

/-- A test of a column against a pattern that a marker stands for. -/
def like (d : Dialect) (column marker : String) (ignoreCase negated : Bool) : String :=
  let (before, after) := d.likeAround column ignoreCase negated
  before ++ marker ++ after

/-- The clause that skips rows and limits their number. -/
def limitOffset (_ : Dialect) (limit offset : Nat) : String :=
  s!"LIMIT {limit} OFFSET {offset}"

/-- The word for a direction of order. -/
def direction (descending : Bool) : String :=
  if descending then "DESC" else "ASC"

/-- An item of an order, with nulls after or before everything else. Where the dialect has no words
for the place of nulls, they are ranked by a first item. -/
def orderItem (d : Dialect) (column : String) (descending nullsLast : Bool) : String :=
  match d with
  | .sqlite =>
    let (nullRank, valueRank) := if nullsLast then ("1", "0") else ("0", "1")
    "CASE WHEN " ++ column ++ " IS NULL THEN " ++ nullRank ++ " ELSE " ++ valueRank ++ " END, " ++
      column ++ " " ++ direction descending
  | .postgres =>
    column ++ " " ++ direction descending ++
      (if nullsLast then " NULLS LAST" else " NULLS FIRST")

end Dialect

end FilterQuery
