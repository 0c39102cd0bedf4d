import FilterQuery.JoinPlan.Basic
import FilterQuery.Filter.Tree

/-!
# Planning joins

Planning walks a filter and plans a join for each path of relations that has none yet. In a filter
of an entity the nested filters come first, then the tests on collections, then the conjunction,
the disjunction and the negation. A path that is met again keeps its join.
-/

namespace FilterQuery

/-- The place in a filter that planning has reached. -/
structure PlanScope where
  /-- The entity whose rows are filtered. -/
  entity : String
  /-- The path from the root, unless it is the root. -/
  path : Option String
  /-- The alias of the rows. -/
  aliasName : String
  /-- The path of the last collection on the way. -/
  anchor : Option String

namespace JoinPlan

/-- The place of the root. -/
def rootScope (plan : JoinPlan) : PlanScope :=
  ⟨plan.root, none, rootAlias, none⟩

/-- The placement of a join whose last collection is at a path, if there is one. -/
def placementOf : Option String → Placement
  | none => .outer
  | some anchor => .inside anchor

/-- The error of a filter of one entity where another is needed. -/
def wrongEntity (found expected : String) : FilterError :=
  .unresolved (.wrongEntity found expected)

/-- Follows a relation from a place: the place of its target, and the plan with a join for its
path. -/
def visit (registry : Registry) (name : String) (scope : PlanScope) (plan : JoinPlan) :
    Except FilterError (PlanScope × JoinPlan) := do
  let relation ← registry.lookupRelation scope.entity name
  let path := childPath scope.path name
  let anchor := if relation.isMany then some path else scope.anchor
  match plan.find? path with
  | some join => .ok (⟨relation.target, some path, join.aliasName, anchor⟩, plan)
  | none =>
    let target ← registry.lookup relation.target
    let join : PlannedJoin :=
      ⟨path, plan.nextAlias, scope.aliasName, scope.entity, target.table, relation,
        placementOf anchor⟩
    .ok (⟨relation.target, some path, join.aliasName, anchor⟩, plan.push join)

mutual

/-- Plans the joins of a filter at a place. -/
def addFilter (registry : Registry) :
    Filter → PlanScope → JoinPlan → Except FilterError JoinPlan
  | .field _, _, plan => .ok plan
  | .all items, scope, plan => addItems registry items scope plan
  | .any items, scope, plan => addItems registry items scope plan
  | .not item, scope, plan => addFilter registry item scope plan
  | .entity filter, scope, plan => addEntity registry filter scope plan
  | .related test, scope, plan => addRelated registry test scope plan
  | .raw _ _, _, plan => .ok plan

/-- Plans the joins of a filter of an entity. -/
def addEntity (registry : Registry) :
    EntityFilter → PlanScope → JoinPlan → Except FilterError JoinPlan
  | ⟨code, _, nested, related, all, any, negated⟩, scope, plan =>
    if code ≠ scope.entity then .error (wrongEntity code scope.entity)
    else do
      let plan ← addNested registry nested scope plan
      let plan ← addTests registry related scope plan
      let plan ← addItems registry all scope plan
      let plan ← addItems registry any scope plan
      addOptional registry negated scope plan

/-- Plans the joins of a test on a collection. -/
def addRelated (registry : Registry) :
    RelatedTest → PlanScope → JoinPlan → Except FilterError JoinPlan
  | .quantified relation _ filter, scope, plan => do
    let (child, plan) ← visit registry relation scope plan
    addFilter registry filter child plan
  | .size relation _ _, scope, plan => (visit registry relation scope plan).map Prod.snd

/-- Plans the joins of several filters at one place. -/
def addItems (registry : Registry) :
    List Filter → PlanScope → JoinPlan → Except FilterError JoinPlan
  | [], _, plan => .ok plan
  | f :: fs, scope, plan => do
    let plan ← addFilter registry f scope plan
    addItems registry fs scope plan

/-- Plans the joins of filters of related entities. -/
def addNested (registry : Registry) :
    List (String × Filter) → PlanScope → JoinPlan → Except FilterError JoinPlan
  | [], _, plan => .ok plan
  | (relation, f) :: fs, scope, plan => do
    let (child, plan) ← visit registry relation scope plan
    let plan ← addFilter registry f child plan
    addNested registry fs scope plan

/-- Plans the joins of several tests on collections. -/
def addTests (registry : Registry) :
    List RelatedTest → PlanScope → JoinPlan → Except FilterError JoinPlan
  | [], _, plan => .ok plan
  | t :: ts, scope, plan => do
    let plan ← addRelated registry t scope plan
    addTests registry ts scope plan

/-- Plans the joins of a filter that may be missing. -/
def addOptional (registry : Registry) :
    Option Filter → PlanScope → JoinPlan → Except FilterError JoinPlan
  | none, _, plan => .ok plan
  | some f, scope, plan => addFilter registry f scope plan

end

/-- The join plan of a filter of a root entity. -/
def ofFilter (registry : Registry) (root : String) (filter : Filter) :
    Except FilterError JoinPlan := do
  let entity ← registry.lookup root
  let plan := start entity
  addFilter registry filter plan.rootScope plan

end JoinPlan

end FilterQuery
