import FilterQuery.Filter.Detection
import FilterQuery.Search.Request
import FilterQuery.Search.Page

/-!
# The engine

An engine is a closed registry with a dialect and limits. It reads filters, compiles them, prepares
searches and runs them through an executor, which talks to a database. Running a search counts
first; a page that begins after the last row is not fetched.
-/

namespace FilterQuery

/-- A closed registry with the settings for compiling filters. -/
structure Engine where
  /-- The entities. -/
  registry : Registry
  /-- The dialect of the statements. -/
  dialect : Dialect
  /-- The bounds on filters. -/
  limits : FilterLimits
  /-- The greatest number of rows of a page. -/
  maxPerPage : Nat
  /-- Every relation of the registry leads to an entity through declared columns. -/
  closed : registry.validate = .ok ()

/-- A row of a plan's root can occur again only through a join of the outer query. -/
def JoinPlan.mayRepeat (plan : JoinPlan) : Bool :=
  !plan.outerJoins.isEmpty

namespace Engine

/-- An engine for a registry that is closed, with the default bounds. -/
def new (registry : Registry) (dialect : Dialect) : Except FilterError Engine :=
  match h : registry.validate with
  | .ok () => .ok ⟨registry, dialect, .default, FilterQuery.maxPerPage, h⟩
  | .error error => .error error

/-- The engine with other bounds on filters. -/
def withLimits (e : Engine) (limits : FilterLimits) : Engine :=
  { e with limits := limits }

/-- The engine with another bound on the rows of a page. -/
def withMaxPerPage (e : Engine) (maximum : Nat) : Engine :=
  { e with maxPerPage := maximum }

/-! ## Compiling -/

/-- Plans and resolves a filter of a root entity at a given time. -/
def compile (e : Engine) (root : String) (filter : Filter) (now : Instant) :
    Except FilterError CompiledFilter := do
  let plan ← JoinPlan.ofFilter e.registry root filter
  let condition ← filter.resolve e.registry plan now
  .ok ⟨root, plan, condition⟩

/-! ## Preparing searches -/

/-- The filter of a query; without one, every row of the root is selected. -/
def filterOf (e : Engine) (root : String) (query : PageQuery) : Except FilterError Filter :=
  match query.filter with
  | none => .ok (.entity (.everything root))
  | some (.document json) => Filter.ofJson e.registry e.limits (some root) json
  | some (.filter filter) => .ok filter

/-- The columns of the orderings of a query, each with its direction. -/
def orderColumns (registry : Registry) (root : String) :
    List OrderBy → Except FilterError (List (String × Direction))
  | [] => .ok []
  | o :: os => do
    let field ← registry.lookupField root o.field
    let rest ← orderColumns registry root os
    .ok ((field.column, o.direction) :: rest)

/-- A column of the root's rows. -/
def rootColumn (column : String) : String :=
  JoinPlan.rootAlias ++ "." ++ column

/-- The items of an order: the given columns with nulls last, then the columns of the primary key
that are not among them. -/
def orderItems (d : Dialect) (columns : List (String × Direction)) (primaryKey : List String) :
    List String :=
  (columns.map fun (column, direction) =>
      d.orderItem (rootColumn column) (direction == .desc) true) ++
    (primaryKey.filter fun key => !(columns.map Prod.fst).contains key).map
      fun key => rootColumn key ++ " ASC"

/-- Prepares the search of a query at a given time. -/
def prepare (e : Engine) (root : String) (query : PageQuery) (now : Instant) :
    Except FilterError SearchRequest := do
  query.check
  if e.maxPerPage < query.perPage then
    .error (.invalidPagination (.perPage e.maxPerPage))
  else
    let entity ← e.registry.lookup root
    let filter ← e.filterOf root query
    let compiled ← e.compile root filter now
    let columns ← orderColumns e.registry root query.orderBy
    .ok {
      root := root
      dialect := e.dialect
      fromFragment := compiled.fromFragment e.dialect
      whereFragment := compiled.whereFragment e.dialect
      primaryKey := entity.primaryKey.map rootColumn
      distinct := compiled.plan.mayRepeat
      order := orderItems e.dialect columns entity.primaryKey
      page := query.page
      perPage := query.perPage
      aliases := compiled.plan.aliases }

end Engine

/-! ## Running searches -/

/-- A failure of a database. -/
inductive DataError where
  /-- The database cannot be used. -/
  | unavailable (backend reason : String)
deriving DecidableEq, Repr

/-- The wording of a failure. -/
def DataError.message : DataError → String
  | .unavailable backend reason => s!"Backend {backend} is not available: {reason}"

/-- A failure of a search. -/
inductive SearchError where
  /-- The query or the registry is at fault. -/
  | filter (error : FilterError)
  /-- The database is at fault. -/
  | data (error : DataError)
deriving DecidableEq, Repr

namespace SearchError

/-- The wording of a failure. -/
def message : SearchError → String
  | .filter error => error.message
  | .data error => error.message

/-- Whether the request is at fault. -/
def isClientError : SearchError → Bool
  | .filter error => error.isClientError
  | .data _ => false

end SearchError

/-- What runs the statements of a search in a database. -/
structure Executor (m : Type → Type) (α : Type) where
  /-- Counts the selected rows. -/
  count : SearchRequest → m (Except DataError Nat)
  /-- Fetches the rows of the page in order. -/
  fetch : SearchRequest → m (Except DataError (List α))

/-- Runs a prepared search: counts, and fetches the page if it begins before the last row. -/
def SearchRequest.run {m : Type → Type} [Monad m] {α : Type} (r : SearchRequest)
    (executor : Executor m α) : m (Except SearchError (Page α)) := do
  match ← executor.count r with
  | .error error => pure (.error (.data error))
  | .ok total =>
    if total ≤ r.offset then pure (.ok (.of [] r.page r.perPage total))
    else
      match ← executor.fetch r with
      | .error error => pure (.error (.data error))
      | .ok items => pure (.ok (.of items r.page r.perPage total))

/-- Prepares and runs the search of a query at a given time. -/
def Engine.search {m : Type → Type} [Monad m] {α : Type} (e : Engine) (executor : Executor m α)
    (root : String) (query : PageQuery) (now : Instant) : m (Except SearchError (Page α)) :=
  match e.prepare root query now with
  | .error error => pure (.error (.filter error))
  | .ok request => request.run executor

end FilterQuery
