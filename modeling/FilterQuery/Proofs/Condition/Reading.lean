import FilterQuery.Proofs.Condition.Blank
import FilterQuery.Proofs.Condition.Syntax
import FilterQuery.Proofs.Sql.Unambiguous

/-!
# Reading conditions back

The SQL of a plain condition reads as one tree, and the condition can be read off this tree up to
its values and its form (`Condition.reads_back`). What is lost of the form is what
`Condition.canonical` makes the same: a lone item and its level, tests without parts, and the two
ways to ask whether there is no row. So SQL that is the same comes from conditions that are the same
in this sense.
-/

namespace FilterQuery

open Sql (Expr Reads)

/-! ## Canonical conditions -/

mutual

/-- A condition without needless levels, tests without parts and negated tests for rows. -/
def Condition.canonical : Condition → Condition
  | .isIn column values negated =>
    if values.isEmpty then (if negated then .always else .never) else .isIn column values negated
  | .all items => .allOf (Condition.canonicals items)
  | .any items => .anyOf (Condition.canonicals items)
  | .not item => .not item.canonical
  | .notTrue item => .notTrue item.canonical
  | .hasRow subquery negated =>
    if negated then .not (.hasRow subquery.canonical false) else .hasRow subquery.canonical false
  | .rowCount subquery op count => .rowCount subquery.canonical op count
  | c => c

/-- Conditions in canonical form. -/
def Condition.canonicals : List Condition → List Condition
  | [] => []
  | c :: cs => c.canonical :: Condition.canonicals cs

/-- A subquery with its conditions in canonical form. -/
def Subquery.canonical : Subquery → Subquery
  | ⟨table, aliasName, joins, correlation, filter⟩ =>
    ⟨table, aliasName, Join.canonicals joins, correlation.canonical, filter.canonical⟩

/-- Joins with their conditions in canonical form. -/
def Join.canonicals : List Join → List Join
  | [] => []
  | ⟨table, aliasName, on⟩ :: js => ⟨table, aliasName, on.canonical⟩ :: Join.canonicals js

end

/-! ## Conditions of trees -/

/-- What a predicate says of a column. -/
def columnCondition (c : ColumnRef) : Sql.Predicate → Condition
  | .compare op (.column table column) =>
    if op = .eq then .sameColumns c ⟨table, column⟩ else .never
  | .compare op _ => .compare c op .null
  | .is negated _ => .isNull c negated
  | .between _ _ _ => .between c .null .null
  | .like negated ignoreCase _ => .like c "" ignoreCase false negated
  | .likeEscaped negated ignoreCase _ _ => .like c "" ignoreCase true negated
  | .isIn negated items => .isIn c (items.map fun _ => .null) negated

/-- What a predicate says of a column in lower case. -/
def lowerCondition (c : ColumnRef) : Sql.Predicate → Condition
  | .like negated _ _ => .like c "" true false negated
  | .likeEscaped negated _ _ _ => .like c "" true true negated
  | _ => .never

mutual

/-- The condition that a tree says, with null for each parameter. -/
def Sql.Expr.condition : Sql.Expr → Condition
  | .test (.column table column) predicate => columnCondition ⟨table, column⟩ predicate
  | .test (.call _ (.column table column)) predicate => lowerCondition ⟨table, column⟩ predicate
  | .test (.number left) (.compare _ (.number right)) => if left = right then .always else .never
  | .test (.group inner) _ => .notTrue inner.condition
  | .test (.value query) (.compare op _) => .rowCount query.subquery op 0
  | .hasRows query => .hasRow query.subquery false
  | .not inner => .not inner.condition
  | .group inner => inner.condition
  | .chain .and items => .all (Sql.Expr.conditions items)
  | .chain .or items => .any (Sql.Expr.conditions items)
  | _ => .never

/-- The conditions that trees say. -/
def Sql.Expr.conditions : List Sql.Expr → List Condition
  | [] => []
  | e :: es => e.condition :: Sql.Expr.conditions es

/-- The subquery that a query is. Of two conditions with `AND` between them the second is that on
the rows. -/
def Sql.Query.subquery : Sql.Query → Subquery
  | ⟨_, table, aliasName, joins, .chain .and [correlation, filter]⟩ =>
    ⟨table, aliasName, Sql.Joined.conditions joins, correlation.condition, filter.condition⟩
  | ⟨_, table, aliasName, joins, correlation⟩ =>
    ⟨table, aliasName, Sql.Joined.conditions joins, correlation.condition, .always⟩

/-- The joins that trees of joins are. -/
def Sql.Joined.conditions : List Sql.Joined → List Join
  | [] => []
  | ⟨table, aliasName, on⟩ :: js => ⟨table, aliasName, on.condition⟩ :: Sql.Joined.conditions js

end

theorem Sql.Expr.conditions_eq_map (es : List Expr) : conditions es = es.map condition := by
  induction es with
  | nil => rfl
  | cons e es ih => rw [conditions, ih, List.map_cons]

/-! ## Conditions of the trees of conditions -/

theorem condition_alwaysExpr : alwaysExpr.condition = .always := by
  simp [alwaysExpr, Expr.condition]

theorem condition_neverExpr : neverExpr.condition = .never := by
  simp [neverExpr, Expr.condition]

theorem condition_groupedAnd (es : List Expr) :
    (groupedExpr .and alwaysExpr es).condition = .allOf (es.map Expr.condition) := by
  match es with
  | [] => exact condition_alwaysExpr
  | [e] => rfl
  | e :: f :: es =>
    simp only [groupedExpr, Expr.condition, Sql.Expr.conditions_eq_map, List.map_cons,
      Condition.allOf]

theorem condition_groupedOr (es : List Expr) :
    (groupedExpr .or neverExpr es).condition = .anyOf (es.map Expr.condition) := by
  match es with
  | [] => exact condition_neverExpr
  | [e] => rfl
  | e :: f :: es =>
    simp only [groupedExpr, Expr.condition, Sql.Expr.conditions_eq_map, List.map_cons,
      Condition.anyOf]

theorem condition_likeExpr (d : Dialect) (c : ColumnRef) (ignoreCase escaped negated : Bool) :
    (d.likeExpr c.expr ignoreCase escaped negated).condition =
      .like c "" ignoreCase escaped negated := by
  cases d <;> cases ignoreCase <;> cases escaped <;> rfl

theorem condition_inExpr (c : ColumnRef) (values : List Parameter) (negated : Bool) :
    (inExpr c.expr values negated).condition =
      (Condition.isIn c (values.map fun _ => .null) negated).canonical := by
  cases values with
  | nil => cases negated <;> simp [inExpr, condition_alwaysExpr, condition_neverExpr,
      Condition.canonical]
  | cons v vs => simp [inExpr, Condition.canonical, Expr.condition, ColumnRef.expr, columnCondition]

/-- A lone condition after `WHERE` is that of the correlation. -/
theorem subquery_lone {e : Expr} (he : e.Fits .not) (selected : Expr) (table aliasName : String)
    (joins : List Sql.Joined) :
    (Sql.Query.mk selected table aliasName joins e).subquery =
      ⟨table, aliasName, Sql.Joined.conditions joins, e.condition, .always⟩ := by
  cases e with
  | chain op items =>
    cases op <;> simp [Expr.Fits] at he
  | _ => rfl

mutual

/-- The tree of a condition says the condition. -/
theorem Condition.condition_expr (d : Dialect) : ∀ {c : Condition}, c.Plain →
    (c.expr d).condition = c.blank.canonical
  | .always, _ => condition_alwaysExpr
  | .never, _ => condition_neverExpr
  | .compare _ _ _, _ => rfl
  | .sameColumns _ _, _ => rfl
  | .between _ _ _, _ => rfl
  | .like column _ ignoreCase escaped negated, _ =>
    condition_likeExpr d column ignoreCase escaped negated
  | .isIn column values negated, _ => condition_inExpr column values negated
  | .isNull _ _, _ => rfl
  | .all items, h => by
    have hitems := Condition.conditions_exprs d h
    rw [Condition.expr, condition_groupedAnd, ← Sql.Expr.conditions_eq_map, hitems]
    simp only [Condition.blank, Condition.canonical]
  | .any items, h => by
    have hitems := Condition.conditions_exprs d h
    rw [Condition.expr, condition_groupedOr, ← Sql.Expr.conditions_eq_map, hitems]
    simp only [Condition.blank, Condition.canonical]
  | .not item, h => by
    have hitem := Condition.condition_expr d (c := item) h
    simp only [Condition.expr, Condition.blank, Condition.canonical, Expr.condition, hitem]
  | .notTrue item, h => by
    have hitem := Condition.condition_expr d (c := item) h
    simp only [Condition.expr, Condition.blank, Condition.canonical, Expr.condition, hitem]
  | .hasRow subquery negated, h => by
    have hquery := Subquery.subquery_query d (.number "1") (q := subquery) h
    cases negated <;>
      simp [Condition.expr, Condition.blank, Condition.canonical, Expr.condition, hquery]
  | .rowCount subquery op _, h => by
    have hquery := Subquery.subquery_query d (.callRows "COUNT") (q := subquery) h
    simp only [Condition.expr, Condition.blank, Condition.canonical, Expr.condition, hquery]

theorem Condition.conditions_exprs (d : Dialect) : ∀ {cs : List Condition},
    Condition.AllPlain cs →
      Sql.Expr.conditions (Condition.exprs d cs) = Condition.canonicals (Condition.blanks cs)
  | [], _ => rfl
  | c :: cs, h => by
    have hc := Condition.condition_expr d h.1
    have hcs := Condition.conditions_exprs d h.2
    simp only [Condition.exprs, Condition.blanks, Condition.canonicals, Sql.Expr.conditions, hc,
      hcs]

theorem Subquery.subquery_query (d : Dialect) (selected : Expr) : ∀ {q : Subquery}, q.Plain →
    (q.query d selected).subquery = q.blank.canonical
  | ⟨table, aliasName, joins, correlation, filter⟩, ⟨_, _, hjoins, hcorrelation, hfilter⟩ => by
    have hrelated := Condition.condition_expr d hcorrelation
    have hcondition := Condition.condition_expr d hfilter
    have hall := Join.conditions_joined d hjoins
    rw [Subquery.query]
    split
    · rename_i halways
      obtain rfl : filter = .always := by
        cases filter <;> first | rfl | cases halways
      rw [subquery_lone (Condition.expr_fits d correlation), hrelated, hall]
      rfl
    · simp only [Sql.Query.subquery, Subquery.blank, Subquery.canonical, hrelated, hcondition, hall]

theorem Join.conditions_joined (d : Dialect) : ∀ {js : List Join}, Join.AllPlain js →
    Sql.Joined.conditions (Join.joined d js) = Join.canonicals (Join.blanks js)
  | [], _ => rfl
  | ⟨table, aliasName, on⟩ :: js, ⟨_, _, hon, hjs⟩ => by
    have hcondition := Condition.condition_expr d hon
    have hall := Join.conditions_joined d hjs
    simp only [Join.joined, Join.blanks, Join.canonicals, Sql.Joined.conditions, hcondition, hall]

end

/-! ## Reading -/

/-- The SQL of a plain condition reads as its tree, and as no other. -/
theorem Condition.Plain.reads_iff {c : Condition} (h : c.Plain) (d : Dialect) (start : Nat)
    (e : Expr) : Reads (Fragment.sql d start (c.fragment d)) e ↔ e = c.expr d := by
  have hreads : Reads (Fragment.sql d start (c.fragment d)) (c.expr d) :=
    ⟨(Condition.expr_fits d c).2, (Condition.Plain.lexes d h start).lex_eq⟩
  constructor
  · exact fun he => he.unique hreads
  · rintro rfl
    exact hreads

/-- SQL reads back as the condition that was rendered. The SQL of a plain condition reads as one
tree and no other, and the tree says the condition, in canonical form and without its values. So
plain conditions with the same SQL, with their markers numbered from anywhere, are the same in this
sense. -/
theorem Condition.reads_back (d : Dialect) :
    (∀ (c : Condition) (start : Nat), c.Plain →
      (∀ e, Reads (Fragment.sql d start (c.fragment d)) e ↔ e = c.expr d) ∧
        (c.expr d).condition = c.blank.canonical) ∧
    ∀ (c c' : Condition) (start start' : Nat), c.Plain → c'.Plain →
      Fragment.sql d start (c.fragment d) = Fragment.sql d start' (c'.fragment d) →
        c.blank.canonical = c'.blank.canonical := by
  refine ⟨fun c start h => ⟨h.reads_iff d start, Condition.condition_expr d h⟩, ?_⟩
  intro c c' start start' h h' heq
  have hreads := (h.reads_iff d start (c.expr d)).2 rfl
  rw [heq, h'.reads_iff] at hreads
  rw [← Condition.condition_expr d h, hreads, Condition.condition_expr d h']

/-- No card of a deck is of rank S or has an author whose name begins with `a`. -/
def Catalog.commonDeck : Condition :=
  .not (.hasRow ⟨"animestars_cards", "t1",
    [⟨"animestars_users", "t2", .sameColumns ⟨"t1", "author"⟩ ⟨"t2", "username"⟩⟩],
    .sameColumns ⟨"t0", "anime_link"⟩ ⟨"t1", "anime_link"⟩,
    .any [.compare ⟨"t1", "rank"⟩ .eq (.text "S"),
      .like ⟨"t2", "username"⟩ "a%" true false false]⟩ false)

theorem Catalog.plain_commonDeck : commonDeck.Plain := by
  simp only [commonDeck, Condition.Plain, Condition.AllPlain, Subquery.Plain, Join.AllPlain,
    ColumnRef.Plain]
  decide

theorem Condition.reads_back_commonDeck :
    (∃ e, Reads (Fragment.sql .postgres 0 (Catalog.commonDeck.fragment .postgres)) e ∧
      e.condition = Catalog.commonDeck.blank.canonical) ∧
    (Condition.all [Catalog.commonDeck]).blank.canonical = Catalog.commonDeck.blank.canonical := by
  have hplain := Catalog.plain_commonDeck
  obtain ⟨hreads, hcondition⟩ := (Condition.reads_back .postgres).1 Catalog.commonDeck 0 hplain
  refine ⟨⟨_, (hreads _).2 rfl, hcondition⟩, ?_⟩
  exact (Condition.reads_back .sqlite).2 _ _ 0 0 ⟨hplain, trivial⟩ hplain rfl

end FilterQuery
