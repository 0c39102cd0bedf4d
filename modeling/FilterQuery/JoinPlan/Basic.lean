import FilterQuery.Schema.Registry
import FilterQuery.Condition.Tree

/-!
# Join plans

A join plan lists the joins that a filter needs: one for each path of relations that the filter
follows from its root, in the order in which the paths are first met. Each join has an alias of its
own. A path on which every relation is single-valued is joined in the outer query; any other is
joined inside the subquery of the last collection on it, its anchor.
-/

namespace FilterQuery

/-- Where a join is written. -/
inductive Placement where
  /-- In the outer query. -/
  | outer
  /-- In the subquery of the collection at a path. -/
  | inside (anchor : String)
deriving DecidableEq, Repr

/-- A join of a plan. -/
structure PlannedJoin where
  /-- The names of the relations from the root, with points between them. -/
  path : String
  /-- The alias of the rows that are joined. -/
  aliasName : String
  /-- The alias of the rows that they are joined to. -/
  parent : String
  /-- The entity that the relation belongs to. -/
  source : String
  /-- The table of the target. -/
  table : String
  /-- The relation. -/
  relation : Relation
  /-- Where the join is written. -/
  placement : Placement
deriving DecidableEq, Repr

namespace PlannedJoin

/-- The entity that the relation leads to. -/
def target (j : PlannedJoin) : String :=
  j.relation.target

/-- The condition that relates the joined rows to those they are joined to. -/
def condition (j : PlannedJoin) : Condition :=
  columnsMatch j.relation.columns j.parent j.aliasName

/-- The join as part of a query. -/
def join (j : PlannedJoin) : Join :=
  ⟨j.table, j.aliasName, j.condition⟩

/-- Whether a join is a single-valued one inside the subquery of the collection at a path. -/
def isInside (j : PlannedJoin) (anchor : String) : Bool :=
  !j.relation.isMany && j.placement == .inside anchor

end PlannedJoin

/-- The joins that a filter needs. -/
structure JoinPlan where
  /-- The entity that the filter belongs to. -/
  root : String
  /-- The table of that entity. -/
  table : String
  /-- The joins, in the order in which they were planned. -/
  joins : List PlannedJoin
deriving DecidableEq, Repr

namespace JoinPlan

/-- The alias of the rows of the root. -/
def rootAlias : String := "t0"

/-- The plan of a root entity without joins. -/
def start (root : Entity) : JoinPlan :=
  ⟨root.code, root.table, []⟩

/-- The join of a path. -/
def find? (plan : JoinPlan) (path : String) : Option PlannedJoin :=
  plan.joins.find? fun j => j.path == path

/-- The alias of the join that is planned next. -/
def nextAlias (plan : JoinPlan) : String :=
  s!"t{plan.joins.length + 1}"

/-- The plan with one more join. -/
def push (plan : JoinPlan) (join : PlannedJoin) : JoinPlan :=
  { plan with joins := plan.joins ++ [join] }

/-- The alias of each path, in increasing order of the paths. -/
def aliases (plan : JoinPlan) : NameMap String :=
  plan.joins.foldl (fun m j => m.insert j.path j.aliasName) NameMap.empty

/-- The joins of the outer query. -/
def outerJoins (plan : JoinPlan) : List PlannedJoin :=
  plan.joins.filter fun j => j.placement == .outer

/-- The single-valued joins in the subquery of the collection at a path. -/
def innerJoins (plan : JoinPlan) (anchor : String) : List PlannedJoin :=
  plan.joins.filter fun j => j.isInside anchor

/-- The subquery of the collection that a join leads to, with a filter on its rows. -/
def subquery (plan : JoinPlan) (join : PlannedJoin) (filter : Condition) : Subquery :=
  ⟨join.table, join.aliasName, (plan.innerJoins join.path).map PlannedJoin.join, join.condition,
    filter⟩

/-- The path of a relation below another path, or from the root. -/
def childPath (parent : Option String) (relation : String) : String :=
  match parent with
  | some path => path ++ "." ++ relation
  | none => relation

end JoinPlan

end FilterQuery
