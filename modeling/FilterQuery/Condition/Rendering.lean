import FilterQuery.Condition.Tree
import FilterQuery.Statement.Fragment

/-!
# Conditions as SQL

Every condition has a fragment of SQL in each dialect. Its values are never part of the text. Where
a condition could be taken apart by an operator beside it, it stands in parentheses.
-/

namespace FilterQuery

open Fragment (ofText ofValue)

/-- A condition without parts that every row satisfies, as it is written. -/
def alwaysText : String := "1=1"

/-- A condition without parts that no row satisfies, as it is written. -/
def neverText : String := "1=0"

/-- The clause that names the escape character of a pattern. -/
def escapeClause (escaped : Bool) : Fragment :=
  if escaped then ofText " ESCAPE '\\'" else []

/-- A piece of SQL with its markers replaced by values, as long as there are values. -/
def rawFragment : List Char → List Parameter → Fragment
  | [], _ => []
  | '?' :: cs, v :: vs => .value v :: rawFragment cs vs
  | c :: cs, vs => .text (String.singleton c) :: rawFragment cs vs

/-- A test whether a column is one of some values. -/
def inFragment (column : ColumnRef) (values : List Parameter) (negated : Bool) : Fragment :=
  match values with
  | [] => ofText (if negated then alwaysText else neverText)
  | vs =>
    ofText (column.text ++ " " ++ Dialect.negation negated ++ "IN (") ++
      Fragment.separated ", " (vs.map ofValue) ++ ofText ")"

mutual

/-- A condition as SQL. -/
def Condition.fragment (d : Dialect) : Condition → Fragment
  | .always => ofText alwaysText
  | .never => ofText neverText
  | .compare column op value => ofText (column.text ++ " " ++ op.symbol ++ " ") ++ ofValue value
  | .sameColumns left right => ofText (left.text ++ " = " ++ right.text)
  | .between column low high =>
    ofText (column.text ++ " BETWEEN ") ++ ofValue low ++ ofText " AND " ++ ofValue high
  | .like column pattern ignoreCase escaped negated =>
    let (before, after) := d.likeAround column.text ignoreCase negated
    ofText before ++ ofValue (.text pattern) ++ ofText after ++ escapeClause escaped
  | .isIn column values negated => inFragment column values negated
  | .isNull column negated =>
    ofText (column.text ++ " IS " ++ Dialect.negation negated ++ "NULL")
  | .all items => Fragment.grouped " AND " alwaysText (Condition.fragments d items)
  | .any items => Fragment.grouped " OR " neverText (Condition.fragments d items)
  | .not item => ofText "NOT (" ++ item.fragment d ++ ofText ")"
  | .notTrue item => ofText "(" ++ item.fragment d ++ ofText ") IS NOT TRUE"
  | .hasRow subquery negated =>
    ofText (Dialect.negation negated ++ "EXISTS (") ++ subquery.fragment d "1" ++ ofText ")"
  | .rowCount subquery op count =>
    ofText "(" ++ subquery.fragment d "COUNT(*)" ++ ofText (") " ++ op.symbol ++ " ") ++
      ofValue (.integer count)
  | .raw sql parameters => ofText "(" ++ rawFragment sql.toList parameters ++ ofText ")"

/-- Conditions as SQL, each on its own. -/
def Condition.fragments (d : Dialect) : List Condition → List Fragment
  | [] => []
  | c :: cs => c.fragment d :: Condition.fragments d cs

/-- A subquery as SQL that selects a given expression. -/
def Subquery.fragment (d : Dialect) (selected : String) : Subquery → Fragment
  | ⟨table, aliasName, joins, correlation, filter⟩ =>
    ofText ("SELECT " ++ selected ++ " FROM " ++ table ++ " " ++ aliasName) ++
      Join.fragments d joins ++ ofText " WHERE " ++ correlation.fragment d ++
      (if filter.isAlways then [] else ofText " AND " ++ filter.fragment d)

/-- Joins as SQL, each after a blank. -/
def Join.fragments (d : Dialect) : List Join → Fragment
  | [] => []
  | ⟨table, aliasName, on⟩ :: js =>
    ofText (" LEFT JOIN " ++ table ++ " " ++ aliasName ++ " ON ") ++ on.fragment d ++
      Join.fragments d js

end

end FilterQuery
