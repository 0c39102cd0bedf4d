import FilterQuery.JoinPlan.Planning
import FilterQuery.Condition.Rendering
import FilterQuery.Condition.Resolution
import FilterQuery.Search.Query

/-!
# Search requests

What a database needs to answer a query: the fragments after `FROM` and `WHERE`, the order, and the
page. `countSql` counts the selected rows of the root entity and `pageSql` selects those of the
page. Both statements hold the same two fragments, so the same parameters belong to both.
-/

namespace FilterQuery

/-- A filter with its join plan and its condition. -/
structure CompiledFilter where
  /-- The entity whose rows are selected. -/
  root : String
  /-- The joins. -/
  plan : JoinPlan
  /-- The condition. -/
  condition : Condition

namespace CompiledFilter

/-- The table of the root and the joins of the outer query. -/
def fromFragment (c : CompiledFilter) (d : Dialect) : Fragment :=
  Fragment.ofText (c.plan.table ++ " " ++ JoinPlan.rootAlias) ++
    Join.fragments d (c.plan.outerJoins.map PlannedJoin.join)

/-- The condition on the rows. -/
def whereFragment (c : CompiledFilter) (d : Dialect) : Fragment :=
  c.condition.fragment d

end CompiledFilter

/-- A search that is ready to be run. -/
structure SearchRequest where
  /-- The entity whose rows are selected. -/
  root : String
  /-- The dialect of the statements. -/
  dialect : Dialect
  /-- What stands after `FROM`. -/
  fromFragment : Fragment
  /-- What stands after `WHERE`. -/
  whereFragment : Fragment
  /-- The columns of the primary key, with their alias. -/
  primaryKey : List String
  /-- Whether the joins may repeat a row of the root. -/
  distinct : Bool
  /-- The items of the order. -/
  order : List String
  /-- The number of the page, from one. -/
  page : Nat
  /-- The number of rows of a page. -/
  perPage : Nat
  /-- The alias of each path of relations. -/
  aliases : NameMap String

namespace SearchRequest

/-- The text after `FROM`. -/
def fromSql (r : SearchRequest) : String :=
  Fragment.sql r.dialect 0 r.fromFragment

/-- The text after `WHERE`; its markers go on from those after `FROM`. -/
def whereSql (r : SearchRequest) : String :=
  Fragment.sql r.dialect r.fromFragment.parameters.length r.whereFragment

/-- The values of the markers, in order. -/
def parameters (r : SearchRequest) : List Parameter :=
  r.fromFragment.parameters ++ r.whereFragment.parameters

/-- The number of rows before the page. -/
def offset (r : SearchRequest) : Nat :=
  (r.page - 1) * r.perPage

/-- The statement that counts the selected rows of the root. -/
def countSql (r : SearchRequest) : String :=
  "SELECT COUNT(*) FROM (SELECT DISTINCT " ++ ", ".intercalate r.primaryKey ++ " FROM " ++
    r.fromSql ++ " WHERE " ++ r.whereSql ++ ") AS filtered"

/-- The statement that selects the rows of the page. -/
def pageSql (r : SearchRequest) : String :=
  "SELECT " ++ (if r.distinct then "DISTINCT " else "") ++ JoinPlan.rootAlias ++ ".* FROM " ++
    r.fromSql ++ " WHERE " ++ r.whereSql ++ " ORDER BY " ++ ", ".intercalate r.order ++ " " ++
    r.dialect.limitOffset r.perPage r.offset

end SearchRequest

end FilterQuery
