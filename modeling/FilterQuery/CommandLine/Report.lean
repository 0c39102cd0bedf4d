import FilterQuery.Json.Basic
import FilterQuery.Search.Engine

/-!
# Reports

What the commands write, as JSON documents: the entities of a registry, and the statements of a
search with their parameters and aliases. Members stand in a fixed order.
-/

namespace FilterQuery

/-! ## Entities -/

/-- The report of a field. -/
def Field.report (name : String) (f : Field) : Json :=
  .object [
    ("name", .text name),
    ("column", .text f.column),
    ("kind", .text f.kind.name)]

/-- The report of a relation. -/
def Relation.report (name : String) (r : Relation) : Json :=
  .object [
    ("name", .text name),
    ("target", .text r.target),
    ("many", .bool r.isMany)]

/-- The report of an entity. -/
def Entity.report (e : Entity) : Json :=
  .object [
    ("entity", .text e.code),
    ("table", .text e.table),
    ("primary_key", .array (e.primaryKey.map .text)),
    ("fields", .array (e.fields.map fun (name, f) => f.report name)),
    ("relations", .array (e.relations.map fun (name, r) => r.report name))]

/-- The report of the entities in the order of their codes. -/
def Registry.report (r : Registry) : Json :=
  .array (r.toList.map Entity.report)

/-! ## Searches -/

/-- The report of a parameter. A number that is not finite is written as null. -/
def Parameter.report : Parameter → Json
  | .null => .null
  | .bool b => .bool b
  | .integer n => .integer n
  | .float x => if x.isFinite then .float x else .null
  | .text s => .text s
  | .timestamp t => .text t.text

/-- The members of the report of a search. -/
def SearchRequest.report (r : SearchRequest) : List (String × Json) :=
  [("entity", .text r.root),
    ("backend", .text r.dialect.name),
    ("count_sql", .text r.countSql),
    ("page_sql", .text r.pageSql),
    ("params", .array (r.parameters.map Parameter.report)),
    ("join_aliases", .object (r.aliases.entries.map fun (path, name) => (path, .text name)))]

/-- The wording of the place of a join. -/
def Placement.report : Placement → String
  | .outer => "root"
  | .inside anchor => "correlated:" ++ anchor

/-- The report of a join. -/
def PlannedJoin.report (j : PlannedJoin) : Json :=
  .object [
    ("path", .text j.path),
    ("alias", .text j.aliasName),
    ("parent_alias", .text j.parent),
    ("table", .text j.table),
    ("scope", .text j.placement.report)]

/-- The report of the joins of a plan. -/
def JoinPlan.report (p : JoinPlan) : Json :=
  .array (p.joins.map PlannedJoin.report)

end FilterQuery
