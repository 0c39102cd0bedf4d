import FilterQuery.Value

/-!
# Conditions

A condition on the rows of aliased tables: what a filter becomes once its fields are columns and
its relations are joins and subqueries. A condition holds its values, and rendering puts markers
in their places.
-/

namespace FilterQuery

/-- A column of the row that an alias stands for. -/
structure ColumnRef where
  /-- The alias. -/
  aliasName : String
  /-- The column. -/
  column : String
deriving DecidableEq, Repr

/-- A column as it is written in a statement. -/
def ColumnRef.text (c : ColumnRef) : String :=
  c.aliasName ++ "." ++ c.column

/-- A comparison of two values. -/
inductive Comparison where
  /-- Equal. -/
  | eq
  /-- Not equal. -/
  | ne
  /-- Greater. -/
  | gt
  /-- Greater or equal. -/
  | gte
  /-- Less. -/
  | lt
  /-- Less or equal. -/
  | lte
deriving DecidableEq, Repr

/-- A comparison as it is written in a statement. -/
def Comparison.symbol : Comparison → String
  | .eq => "="
  | .ne => "<>"
  | .gt => ">"
  | .gte => ">="
  | .lt => "<"
  | .lte => "<="

mutual

/-- A condition. -/
inductive Condition where
  /-- Holds for every row. -/
  | always
  /-- Holds for no row. -/
  | never
  /-- A column compares with a value. -/
  | compare (column : ColumnRef) (op : Comparison) (value : Parameter)
  /-- Two columns are equal. -/
  | sameColumns (left right : ColumnRef)
  /-- A column lies between two values, both included. -/
  | between (column : ColumnRef) (low high : Parameter)
  /-- A column matches a pattern, with or without regard to case; the pattern may use the escape
  character. -/
  | like (column : ColumnRef) (pattern : String) (ignoreCase escaped negated : Bool)
  /-- A column is one of some values. -/
  | isIn (column : ColumnRef) (values : List Parameter) (negated : Bool)
  /-- A column is null. -/
  | isNull (column : ColumnRef) (negated : Bool)
  /-- Every item holds. -/
  | all (items : List Condition)
  /-- Some item holds. -/
  | any (items : List Condition)
  /-- The item is false. -/
  | not (item : Condition)
  /-- The item is false or unknown. -/
  | notTrue (item : Condition)
  /-- A subquery has a row. -/
  | hasRow (subquery : Subquery) (negated : Bool)
  /-- The number of rows of a subquery compares with a given one. -/
  | rowCount (subquery : Subquery) (op : Comparison) (count : Int)
  /-- A piece of SQL with the values of its markers. -/
  | raw (sql : String) (parameters : List Parameter)

/-- The rows of a table that are related to the current row and satisfy a filter. -/
structure Subquery where
  /-- The table. -/
  table : String
  /-- The alias of its rows. -/
  aliasName : String
  /-- The joins inside the subquery. -/
  joins : List Join
  /-- How its rows are related to the current row. -/
  correlation : Condition
  /-- The filter on its rows. -/
  filter : Condition

/-- A left outer join with the rows of a table. -/
structure Join where
  /-- The table. -/
  table : String
  /-- The alias of its rows. -/
  aliasName : String
  /-- The condition of the join. -/
  on : Condition

end

namespace Condition

/-- The conjunction of conditions, without a needless level. -/
def allOf : List Condition → Condition
  | [] => .always
  | [c] => c
  | cs => .all cs

/-- The disjunction of conditions, without a needless level. -/
def anyOf : List Condition → Condition
  | [] => .never
  | [c] => c
  | cs => .any cs

/-- Whether a condition is the one that holds for every row by its form. -/
def isAlways : Condition → Bool
  | .always => true
  | _ => false

end Condition

/-- The condition that pairs of columns are equal, the first of each pair belonging to one alias and
the second to another. -/
def columnsMatch (columns : List (String × String)) (source target : String) : Condition :=
  .allOf (columns.map fun (a, b) => .sameColumns ⟨source, a⟩ ⟨target, b⟩)

end FilterQuery
