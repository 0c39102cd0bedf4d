import FilterQuery.Search.Request
import FilterQuery.Proofs.Meaning.Truth

/-!
# Conditions on a database

What a condition says of the rows of a database, as the language of the statements has it. An
environment gives each alias its row. A left join goes through the rows of a table that satisfy its
condition, or puts a row of nulls in their place when there are none (`Join.extend`); a subquery
selects the environments in which its correlation and its filter hold (`Subquery.rows`); a
condition has one of three truth values (`Condition.eval`).

How a database compares values is not said: the tests of a value against a parameter and of two
values for sameness are part of the `Database`.
-/

namespace FilterQuery

/-- A row: its value in each column, and nothing in a column that is null. -/
abbrev Row (Cell : Type) := String → Option Cell

/-- The row of nulls. -/
def Row.null {Cell : Type} : Row Cell :=
  fun _ => none

/-- A database: the rows of each table, and the tests that it can put to values. -/
structure Database (Cell : Type) where
  /-- The rows of a table. -/
  table : String → List (Row Cell)
  /-- The comparison of a value with a parameter. -/
  compare : Comparison → Cell → Parameter → Truth
  /-- Whether a value lies between two parameters. -/
  between : Cell → Parameter → Parameter → Truth
  /-- Whether a value matches a pattern, with or without regard to case, with or without an escape
  character. -/
  like : Cell → String → Bool → Bool → Truth
  /-- Whether two values are equal. -/
  same : Cell → Cell → Truth
  /-- What a piece of SQL says of the rows of the aliases. -/
  piece : String → List Parameter → (String → Row Cell) → Truth

/-- The row that each alias stands for. -/
abbrev Env (Cell : Type) := String → Row Cell

variable {Cell : Type}

/-- The environment with another row for an alias. -/
def Env.set (env : Env Cell) (aliasName : String) (row : Row Cell) : Env Cell :=
  fun other => if other = aliasName then row else env other

@[simp] theorem Env.set_self (env : Env Cell) (aliasName : String) (row : Row Cell) :
    env.set aliasName row aliasName = row :=
  if_pos rfl

theorem Env.set_of_ne (env : Env Cell) {aliasName other : String} (row : Row Cell)
    (h : other ≠ aliasName) : env.set aliasName row other = env other :=
  if_neg h

/-- The value of a column in an environment. -/
def ColumnRef.value (c : ColumnRef) (env : Env Cell) : Option Cell :=
  env c.aliasName c.column

/-- Whether two values that may be missing are equal. -/
def Database.sameCell (db : Database Cell) (a b : Option Cell) : Truth :=
  .ofTest a fun a => .ofTest b fun b => db.same a b

/-- Whether a number compares with another. -/
def Comparison.test : Comparison → Int → Int → Bool
  | .eq, m, n => m == n
  | .ne, m, n => m != n
  | .gt, m, n => decide (n < m)
  | .gte, m, n => decide (n ≤ m)
  | .lt, m, n => decide (m < n)
  | .lte, m, n => decide (m ≤ n)

/-- The matches of a left join, or what stands in their place. -/
def padded {α : Type} (padding : α) : List α → List α
  | [] => [padding]
  | matched => matched

mutual

/-- The truth value of a condition where each alias stands for a row. -/
def Condition.eval (db : Database Cell) : Condition → Env Cell → Truth
  | .always, _ => .holds
  | .never, _ => .fails
  | .compare column op value, env => .ofTest (column.value env) fun cell => db.compare op cell value
  | .sameColumns left right, env => db.sameCell (left.value env) (right.value env)
  | .between column low high, env =>
    .ofTest (column.value env) fun cell => db.between cell low high
  | .like column pattern ignoreCase escaped negated, env =>
    (Truth.ofTest (column.value env) fun cell => db.like cell pattern ignoreCase escaped).negatedIf
      negated
  | .isIn column values negated, env =>
    (Truth.any (values.map fun value =>
      .ofTest (column.value env) fun cell => db.compare .eq cell value)).negatedIf negated
  | .isNull column negated, env => (Truth.ofBool (column.value env).isNone).negatedIf negated
  | .all items, env => .all (Condition.evals db items env)
  | .any items, env => .any (Condition.evals db items env)
  | .not item, env => (Condition.eval db item env).not
  | .notTrue item, env => .ofBool (decide (Condition.eval db item env ≠ .holds))
  | .hasRow subquery negated, env =>
    (Truth.ofBool !(Subquery.rows db subquery env).isEmpty).negatedIf negated
  | .rowCount subquery op count, env =>
    .ofBool (op.test (Subquery.rows db subquery env).length count)
  | .raw sql values, env => db.piece sql values env

/-- The truth values of several conditions. -/
def Condition.evals (db : Database Cell) : List Condition → Env Cell → List Truth
  | [], _ => []
  | c :: cs, env => Condition.eval db c env :: Condition.evals db cs env

/-- The rows of a subquery, each with the rows of its joins. -/
def Subquery.rows (db : Database Cell) : Subquery → Env Cell → List (Env Cell)
  | ⟨table, aliasName, joins, correlation, filter⟩, env =>
    (Join.extend db joins ((db.table table).map (env.set aliasName))).filter fun env =>
      decide ((Condition.eval db correlation env).and (Condition.eval db filter env) = .holds)

/-- Environments extended by left joins, one after another. -/
def Join.extend (db : Database Cell) : List Join → List (Env Cell) → List (Env Cell)
  | [], envs => envs
  | ⟨table, aliasName, on⟩ :: js, envs =>
    Join.extend db js <| envs.flatMap fun env =>
      padded (env.set aliasName Row.null) <|
        ((db.table table).map (env.set aliasName)).filter fun env =>
          decide (Condition.eval db on env = .holds)

end

namespace CompiledFilter

/-- The rows of the root, each with the rows of the outer joins. -/
def environments (c : CompiledFilter) (db : Database Cell) : List (Env Cell) :=
  Join.extend db (c.plan.outerJoins.map PlannedJoin.join)
    ((db.table c.plan.table).map fun row => Env.set (fun _ => Row.null) JoinPlan.rootAlias row)

/-- The rows of the root that are selected. -/
def select (c : CompiledFilter) (db : Database Cell) : List (Row Cell) :=
  ((c.environments db).filter fun env => decide (c.condition.eval db env = .holds)).map fun env =>
    env JoinPlan.rootAlias

end CompiledFilter

/-! ## Conjunctions and disjunctions -/

namespace Condition

variable {db : Database Cell} {env : Env Cell}

theorem evals_eq_map (cs : List Condition) : evals db cs env = cs.map fun c => c.eval db env := by
  induction cs with
  | nil => rfl
  | cons c cs ih => rw [evals, ih, List.map_cons]

theorem eval_allOf (cs : List Condition) :
    (allOf cs).eval db env = .all (cs.map fun c => c.eval db env) := by
  match cs with
  | [] => rfl
  | [c] => simp [allOf]
  | c :: d :: cs =>
    show (Condition.all (c :: d :: cs)).eval db env = _
    rw [eval, evals_eq_map]

theorem eval_anyOf (cs : List Condition) :
    (anyOf cs).eval db env = .any (cs.map fun c => c.eval db env) := by
  match cs with
  | [] => rfl
  | [c] => simp [anyOf]
  | c :: d :: cs =>
    show (Condition.any (c :: d :: cs)).eval db env = _
    rw [eval, evals_eq_map]

theorem eval_columnsMatch (columns : List (String × String)) (source target : String) :
    (columnsMatch columns source target).eval db env =
      .all (columns.map fun p => db.sameCell (env source p.1) (env target p.2)) := by
  rw [columnsMatch, eval_allOf, List.map_map]
  rfl

end Condition

end FilterQuery
