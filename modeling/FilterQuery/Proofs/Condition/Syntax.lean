import FilterQuery.Condition.Rendering
import FilterQuery.Proofs.Sql.Syntax
import FilterQuery.Proofs.Statement.Markers

/-!
# Syntax trees of conditions

A condition without pieces of SQL whose names are plain (`Condition.Plain`) has a syntax tree in
each dialect (`Condition.expr`), which is well formed and never one that a connective beside it
could take apart. The SQL of the condition has the tokens of this tree (`Condition.Plain.lexes`).
-/

namespace FilterQuery

open Sql (Expr IsName Lexes Closed Breaks)

/-! ## Plain conditions -/

/-- A column with plain names. -/
def ColumnRef.Plain (c : ColumnRef) : Prop :=
  IsName c.aliasName ∧ IsName c.column

mutual

/-- A condition with plain names and without pieces of SQL. -/
def Condition.Plain : Condition → Prop
  | .always => True
  | .never => True
  | .compare column _ _ => column.Plain
  | .sameColumns left right => left.Plain ∧ right.Plain
  | .between column _ _ => column.Plain
  | .like column _ _ _ _ => column.Plain
  | .isIn column _ _ => column.Plain
  | .isNull column _ => column.Plain
  | .all items => Condition.AllPlain items
  | .any items => Condition.AllPlain items
  | .not item => item.Plain
  | .notTrue item => item.Plain
  | .hasRow subquery _ => subquery.Plain
  | .rowCount subquery _ _ => subquery.Plain
  | .raw _ _ => False

/-- Conditions with plain names and without pieces of SQL. -/
def Condition.AllPlain : List Condition → Prop
  | [] => True
  | c :: cs => c.Plain ∧ Condition.AllPlain cs

/-- A subquery with plain names and without pieces of SQL. -/
def Subquery.Plain : Subquery → Prop
  | ⟨table, aliasName, joins, correlation, filter⟩ =>
    IsName table ∧ IsName aliasName ∧ Join.AllPlain joins ∧ correlation.Plain ∧ filter.Plain

/-- Joins with plain names and without pieces of SQL. -/
def Join.AllPlain : List Join → Prop
  | [] => True
  | ⟨table, aliasName, on⟩ :: js =>
    IsName table ∧ IsName aliasName ∧ on.Plain ∧ Join.AllPlain js

end

/-! ## Their trees -/

/-- The tree of a condition without parts that every row satisfies. -/
def alwaysExpr : Expr :=
  .test (.number "1") (.compare .eq (.number "1"))

/-- The tree of a condition without parts that no row satisfies. -/
def neverExpr : Expr :=
  .test (.number "1") (.compare .eq (.number "0"))

/-- A column as a tree. -/
def ColumnRef.expr (c : ColumnRef) : Expr :=
  .column c.aliasName c.column

/-- A match as a predicate, with or without an escape character. -/
def likePredicate (negated ignoreCase : Bool) (pattern : Expr) (escaped : Bool) : Sql.Predicate :=
  if escaped then .likeEscaped negated ignoreCase pattern (.text "\\")
  else .like negated ignoreCase pattern

/-- The match of a column with a pattern as a tree. -/
def Dialect.likeExpr (d : Dialect) (column : Expr) (ignoreCase escaped negated : Bool) : Expr :=
  match d, ignoreCase with
  | .sqlite, true =>
    .test (.call "LOWER" column) (likePredicate negated false (.call "LOWER" .marker) escaped)
  | _, _ => .test column (likePredicate negated ignoreCase .marker escaped)

/-- The test whether a column is one of some values as a tree. -/
def inExpr (column : Expr) (values : List Parameter) (negated : Bool) : Expr :=
  match values with
  | [] => if negated then alwaysExpr else neverExpr
  | vs => .test column (.isIn negated (vs.map fun _ => .marker))

/-- Several trees as one: a tree of its own when there is none, a lone one as it is, and otherwise
all of them in parentheses with a connective. -/
def groupedExpr (op : Sql.Connective) (identity : Expr) : List Expr → Expr
  | [] => identity
  | [e] => e
  | es => .group (.chain op es)

mutual

/-- The tree of a condition. A piece of SQL, of which nothing is known, has that of a parameter. -/
def Condition.expr (d : Dialect) : Condition → Expr
  | .always => alwaysExpr
  | .never => neverExpr
  | .compare column op _ => .test column.expr (.compare op .marker)
  | .sameColumns left right => .test left.expr (.compare .eq right.expr)
  | .between column _ _ => .test column.expr (.between false .marker .marker)
  | .like column _ ignoreCase escaped negated => d.likeExpr column.expr ignoreCase escaped negated
  | .isIn column values negated => inExpr column.expr values negated
  | .isNull column negated => .test column.expr (.is negated .null)
  | .all items => groupedExpr .and alwaysExpr (Condition.exprs d items)
  | .any items => groupedExpr .or neverExpr (Condition.exprs d items)
  | .not item => .not (.group (item.expr d))
  | .notTrue item => .test (.group (item.expr d)) (.is true .true)
  | .hasRow subquery negated =>
    let exists_ : Expr := .hasRows (subquery.query d (.number "1"))
    if negated then .not exists_ else exists_
  | .rowCount subquery op _ =>
    .test (.value (subquery.query d (.callRows "COUNT"))) (.compare op .marker)
  | .raw _ _ => .marker

/-- The trees of conditions. -/
def Condition.exprs (d : Dialect) : List Condition → List Expr
  | [] => []
  | c :: cs => c.expr d :: Condition.exprs d cs

/-- The query that a subquery is, for a given expression. A filter that every row satisfies by its
form is left out. -/
def Subquery.query (d : Dialect) (selected : Expr) : Subquery → Sql.Query
  | ⟨table, aliasName, joins, correlation, filter⟩ =>
    ⟨selected, table, aliasName, Join.joined d joins,
      if filter.isAlways then correlation.expr d
      else .chain .and [correlation.expr d, filter.expr d]⟩

/-- The trees of joins. -/
def Join.joined (d : Dialect) : List Join → List Sql.Joined
  | [] => []
  | ⟨table, aliasName, on⟩ :: js => ⟨table, aliasName, on.expr d⟩ :: Join.joined d js

end

/-! ## Well-formed trees -/

section WellFormed

variable {d : Dialect}

theorem alwaysExpr_fits : alwaysExpr.Fits .not := by
  simp [Expr.Fits, alwaysExpr, Expr.WellFormed, Sql.Predicate.WellFormed]

theorem neverExpr_fits : neverExpr.Fits .not := by
  simp [Expr.Fits, neverExpr, Expr.WellFormed, Sql.Predicate.WellFormed]

theorem Dialect.likeExpr_fits (d : Dialect) (column : ColumnRef)
    (ignoreCase escaped negated : Bool) :
    (d.likeExpr column.expr ignoreCase escaped negated).Fits .not := by
  cases d <;> cases ignoreCase <;> cases escaped <;>
    simp [Expr.Fits, likeExpr, likePredicate, ColumnRef.expr, Expr.WellFormed,
      Sql.Predicate.WellFormed]

theorem allWellFormed_markers (values : List Parameter) :
    Expr.AllWellFormed .or (values.map fun _ => .marker) := by
  induction values with
  | nil => trivial
  | cons v vs ih => exact ⟨⟨Nat.zero_le _, trivial⟩, ih⟩

theorem inExpr_fits (column : ColumnRef) (values : List Parameter) (negated : Bool) :
    (inExpr column.expr values negated).Fits .not := by
  cases values with
  | nil =>
    cases negated with
    | false => exact neverExpr_fits
    | true => exact alwaysExpr_fits
  | cons v vs =>
    have hmarkers := allWellFormed_markers (v :: vs)
    simpa [Expr.Fits, inExpr, ColumnRef.expr, Expr.WellFormed, Sql.Predicate.WellFormed]
      using hmarkers

theorem allWellFormed_mono {l m : Sql.Level} (hlm : l ≤ m) {es : List Expr}
    (hes : Expr.AllWellFormed m es) : Expr.AllWellFormed l es := by
  induction es with
  | nil => trivial
  | cons e es ih => exact ⟨⟨Nat.le_trans hlm hes.1.1, hes.1.2⟩, ih hes.2⟩

theorem groupedExpr_fits {op : Sql.Connective} {identity : Expr} {es : List Expr}
    (hidentity : identity.Fits .not) (hes : Expr.AllWellFormed .not es) :
    (groupedExpr op identity es).Fits .not := by
  match es with
  | [] => exact hidentity
  | [e] => exact hes.1
  | e :: f :: es =>
    have hbelow : op.itemLevel ≤ .not := by
      cases op <;> decide
    have hlevel : Sql.Level.not ≤ .operand := by decide
    exact ⟨hlevel, by simp, allWellFormed_mono hbelow hes⟩

mutual

/-- The tree of a condition is well formed, and no connective beside it can take it apart. -/
theorem Condition.expr_fits (d : Dialect) : ∀ c : Condition, (c.expr d).Fits .not
  | .always => alwaysExpr_fits
  | .never => neverExpr_fits
  | .compare column op _ => by
    simp [Condition.expr, Expr.Fits, ColumnRef.expr, Expr.WellFormed, Sql.Predicate.WellFormed]
  | .sameColumns left right => by
    simp [Condition.expr, Expr.Fits, ColumnRef.expr, Expr.WellFormed, Sql.Predicate.WellFormed]
  | .between column _ _ => by
    simp [Condition.expr, Expr.Fits, ColumnRef.expr, Expr.WellFormed, Sql.Predicate.WellFormed]
  | .like column _ ignoreCase escaped negated => d.likeExpr_fits column ignoreCase escaped negated
  | .isIn column values negated => inExpr_fits column values negated
  | .isNull column negated => by
    simp [Condition.expr, Expr.Fits, ColumnRef.expr, Expr.WellFormed, Sql.Predicate.WellFormed]
  | .all items => groupedExpr_fits alwaysExpr_fits (Condition.exprs_fit d items)
  | .any items => groupedExpr_fits neverExpr_fits (Condition.exprs_fit d items)
  | .not item => by
    simpa [Condition.expr, Expr.Fits, Expr.WellFormed] using (Condition.expr_fits d item).2
  | .notTrue item => by
    simpa [Condition.expr, Expr.Fits, Expr.WellFormed, Sql.Predicate.WellFormed] using
      (Condition.expr_fits d item).2
  | .hasRow subquery negated => by
    have hselected : (Expr.number "1").WellFormed := trivial
    have hquery := Subquery.query_wellFormed d hselected subquery
    cases negated <;> simpa [Condition.expr, Expr.Fits, Expr.WellFormed] using hquery
  | .rowCount subquery op _ => by
    have hselected : (Expr.callRows "COUNT").WellFormed := trivial
    have hquery := Subquery.query_wellFormed d hselected subquery
    simpa [Condition.expr, Expr.Fits, Expr.WellFormed, Sql.Predicate.WellFormed] using hquery
  | .raw _ _ => by
    simp [Condition.expr, Expr.Fits, Expr.WellFormed]

theorem Condition.exprs_fit (d : Dialect) : ∀ cs : List Condition,
    Expr.AllWellFormed .not (Condition.exprs d cs)
  | [] => trivial
  | c :: cs => ⟨Condition.expr_fits d c, Condition.exprs_fit d cs⟩

theorem Subquery.query_wellFormed (d : Dialect) {selected : Expr}
    (hselected : selected.WellFormed) : ∀ q : Subquery, (q.query d selected).WellFormed
  | ⟨table, aliasName, joins, correlation, filter⟩ => by
    refine ⟨hselected, Join.joined_wellFormed d joins, ?_⟩
    have hcorrelation := Condition.expr_fits d correlation
    have hfilter := Condition.expr_fits d filter
    split
    · exact hcorrelation.2
    · exact ⟨Nat.le_refl 2, hcorrelation, hfilter, trivial⟩

theorem Join.joined_wellFormed (d : Dialect) : ∀ js : List Join,
    Sql.Joined.AllWellFormed (Join.joined d js)
  | [] => trivial
  | ⟨_, _, on⟩ :: js => ⟨(Condition.expr_fits d on).2, Join.joined_wellFormed d js⟩

end

end WellFormed

/-! ## Tokens of fragments -/

namespace Fragment

variable {d : Dialect} {f g : Fragment} {ts us : List Sql.Token}

/-- A fragment whose SQL has some tokens, whatever stands after it. -/
def Closed (d : Dialect) (f : Fragment) (ts : List Sql.Token) : Prop :=
  ∀ start, Sql.Closed (sql d start f) ts

/-- A fragment whose SQL has some tokens when what stands after it does not go on with its last
word. -/
def Lexes (d : Dialect) (f : Fragment) (ts : List Sql.Token) : Prop :=
  ∀ start, Sql.Lexes (sql d start f) ts

/-- A fragment whose SQL breaks off the word before it. -/
def Breaks (d : Dialect) (f : Fragment) : Prop :=
  ∀ start, Sql.Breaks (sql d start f)

theorem sql_ofText (d : Dialect) (start : Nat) (s : String) : sql d start (ofText s) = s := by
  simp [ofText, sql]

theorem closed_ofText {s : String} (h : Sql.Closed s ts) : Closed d (ofText s) ts := by
  intro start
  rwa [sql_ofText]

theorem lexes_ofText {s : String} (h : Sql.Lexes s ts) : Lexes d (ofText s) ts := by
  intro start
  rwa [sql_ofText]

theorem Lexes.append_empty (h : Lexes d f ts) : Lexes d (f ++ ofText "") ts := by
  intro start
  rw [sql_append, sql_ofText, String.append_empty]
  exact h start

theorem breaks_ofText_append {s : String} (h : Sql.Breaks s) (f : Fragment) :
    Breaks d (ofText s ++ f) := by
  intro start
  rw [sql_append, sql_ofText]
  exact h.append _

theorem breaks_ofText {s : String} (h : Sql.Breaks s) : Breaks d (ofText s) := by
  intro start
  rwa [sql_ofText]

/-- The marker of a parameter is one token. -/
theorem lexes_ofValue (d : Dialect) (v : Parameter) : Lexes d (ofValue v) [.marker] := by
  intro start
  have hsql : sql d start (ofValue v) = d.marker (start + 1) := by
    simp [ofValue, sql]
  rw [hsql]
  cases d with
  | sqlite =>
    have hmark : Sql.Closed "?" [.marker] := fun _ => rfl
    exact hmark.lexes
  | postgres =>
    refine Sql.lexes_numbered (toList_numberedMarker (start + 1)) ?_ ?_
    · exact Nat.toDigits_ne_nil
    · exact fun c hc => isDigit_of_mem_toDigits hc

theorem Closed.lexes (h : Closed d f ts) : Lexes d f ts :=
  fun start => (h start).lexes

theorem Closed.append (hf : Closed d f ts) (hg : Closed d g us) : Closed d (f ++ g) (ts ++ us) := by
  intro start
  rw [sql_append]
  exact (hf start).append (hg _)

theorem Closed.append_lexes (hf : Closed d f ts) (hg : Lexes d g us) :
    Lexes d (f ++ g) (ts ++ us) := by
  intro start
  rw [sql_append]
  exact (hf start).append_lexes (hg _)

theorem Lexes.append_closed (hf : Lexes d f ts) (hbreaks : Breaks d g) (hg : Closed d g us) :
    Closed d (f ++ g) (ts ++ us) := by
  intro start
  rw [sql_append]
  exact (hf start).append_closed (hbreaks _) (hg _)

theorem Lexes.append (hf : Lexes d f ts) (hbreaks : Breaks d g) (hg : Lexes d g us) :
    Lexes d (f ++ g) (ts ++ us) := by
  intro start
  rw [sql_append]
  exact (hf start).append (hbreaks _) (hg _)

/-- Fragments with a separator between them have the tokens of trees with the token of the separator
between them. -/
theorem lexes_separated {α : Type} {separator : String} {t : Sql.Token}
    (hbreaks : Sql.Breaks separator) (hseparator : Sql.Closed separator [t])
    {fragment : α → Fragment} {expr : α → Expr} {items : List α}
    (h : ∀ a ∈ items, Lexes d (fragment a) (expr a).tokens) :
    Lexes d (separated separator (items.map fragment))
      (Expr.separated t (items.map expr)) := by
  match items with
  | [] => exact fun _ _ _ => rfl
  | [a] =>
    rw [List.map_singleton, List.map_singleton, Expr.separated, Expr.continued, List.append_nil]
    exact h a List.mem_cons_self
  | a :: b :: items =>
    have hrest := lexes_separated hbreaks hseparator fun x hx => h x (List.mem_cons_of_mem a hx)
    have hcut : Closed d (fragment a ++ ofText separator) ((expr a).tokens ++ [t]) :=
      (h a List.mem_cons_self).append_closed (breaks_ofText hbreaks) (closed_ofText hseparator)
    have hall := hcut.append_lexes hrest
    simp only [ofText, List.append_assoc, List.singleton_append] at hall
    exact hall

/-- A fragment in parentheses. -/
theorem Lexes.parentheses (h : Lexes d f ts) :
    Closed d (ofText "(" ++ f ++ ofText ")") (.symbol "(" :: (ts ++ [.symbol ")"])) := by
  have hleft : Sql.Closed "(" [.symbol "("] := fun _ => rfl
  have hright : Sql.Closed ")" [.symbol ")"] := fun _ => rfl
  exact ((closed_ofText hleft).append_lexes h).append_closed (breaks_ofText (by decide))
    (closed_ofText hright)

/-- Fragments as one have the tokens of trees as one. -/
theorem lexes_grouped {α : Type} {op : Sql.Connective} {separator identity : String}
    {identityExpr : Expr} (hbreaks : Sql.Breaks separator)
    (hseparator : Sql.Closed separator [op.token])
    (hidentity : Sql.Lexes identity identityExpr.tokens) {fragment : α → Fragment}
    {expr : α → Expr} {items : List α} (h : ∀ a ∈ items, Lexes d (fragment a) (expr a).tokens) :
    Lexes d (grouped separator identity (items.map fragment))
      (groupedExpr op identityExpr (items.map expr)).tokens := by
  match items with
  | [] => exact lexes_ofText hidentity
  | [a] => exact h a List.mem_cons_self
  | a :: b :: items => exact (lexes_separated hbreaks hseparator h).parentheses.lexes

end Fragment

/-! ## Tokens of conditions -/

open Fragment (ofText ofValue closed_ofText lexes_ofText lexes_ofValue breaks_ofText)

section Leaves

variable {c : ColumnRef} {d : Dialect}

theorem ColumnRef.Plain.lexes (h : c.Plain) : Lexes c.text c.expr.tokens := by
  have hdot : Closed "." [.symbol "."] := fun _ => rfl
  exact (h.1.lexes.append_closed (by decide) hdot).append_lexes h.2.lexes

theorem lexes_always : Lexes alwaysText alwaysExpr.tokens := by
  have hleft : Closed "1=" [.number "1", .symbol "="] := fun _ => rfl
  have hright : Lexes "1" [.number "1"] := Sql.lexes_word (by decide) (by decide)
  rw [show alwaysText = "1=" ++ "1" from rfl]
  exact hleft.append_lexes hright

theorem lexes_never : Lexes neverText neverExpr.tokens := by
  have hleft : Closed "1=" [.number "1", .symbol "="] := fun _ => rfl
  have hright : Lexes "0" [.number "0"] := Sql.lexes_word (by decide) (by decide)
  rw [show neverText = "1=" ++ "0" from rfl]
  exact hleft.append_lexes hright

/-- A column and a blank. -/
theorem ColumnRef.Plain.closed (h : c.Plain) : Closed (c.text ++ " ") c.expr.tokens := by
  have hblank : Closed " " [] := fun _ => rfl
  simpa using h.lexes.append_closed (by decide) hblank

theorem closed_symbol (op : Comparison) : Closed (op.symbol ++ " ") [.symbol op.symbol] := by
  cases op <;> exact fun _ => rfl

theorem closed_negation (negated : Bool) :
    Closed (Dialect.negation negated) (Sql.negation negated) := by
  cases negated <;> exact fun _ => rfl

theorem closed_compare (h : c.Plain) (op : Comparison) :
    Closed (c.text ++ " " ++ op.symbol ++ " ") (c.expr.tokens ++ [.symbol op.symbol]) := by
  rw [String.append_assoc]
  exact h.closed.append (closed_symbol op)

theorem lexes_compare (h : c.Plain) (op : Comparison) (value : Parameter) :
    Fragment.Lexes d ((Condition.compare c op value).fragment d)
      ((Condition.compare c op value).expr d).tokens := by
  have hleft := closed_ofText (d := d) (closed_compare h op)
  simpa [Condition.fragment, Condition.expr, Expr.tokens, Sql.Predicate.tokens] using
    hleft.append_lexes (lexes_ofValue d value)

theorem lexes_sameColumns {left right : ColumnRef} (hleft : left.Plain) (hright : right.Plain) :
    Fragment.Lexes d ((Condition.sameColumns left right).fragment d)
      ((Condition.sameColumns left right).expr d).tokens := by
  have hequal : Closed " = " [.symbol "="] := fun _ => rfl
  have htext := (hleft.lexes.append_closed (by decide) hequal).append_lexes hright.lexes
  simpa [Condition.fragment, Condition.expr, Expr.tokens, Sql.Predicate.tokens,
    Comparison.symbol] using lexes_ofText (d := d) htext

theorem lexes_between (h : c.Plain) (low high : Parameter) :
    Fragment.Lexes d ((Condition.between c low high).fragment d)
      ((Condition.between c low high).expr d).tokens := by
  have hbetween : Closed " BETWEEN " [.keyword "BETWEEN"] := fun _ => rfl
  have hand : Closed " AND " [.keyword "AND"] := fun _ => rfl
  have hcolumn := h.lexes.append_closed (by decide) hbetween
  have hlow := (closed_ofText (d := d) hcolumn).append_lexes (lexes_ofValue d low)
  have hbounds := (hlow.append_closed (breaks_ofText (by decide)) (closed_ofText hand)).append_lexes
    (lexes_ofValue d high)
  simpa [Condition.fragment, Condition.expr, Expr.tokens, Sql.Predicate.tokens,
    Sql.negation] using hbounds

theorem lexes_isNull (h : c.Plain) (negated : Bool) :
    Fragment.Lexes d ((Condition.isNull c negated).fragment d)
      ((Condition.isNull c negated).expr d).tokens := by
  have his : Closed " IS " [.keyword "IS"] := fun _ => rfl
  have hnull : Lexes "NULL" [.keyword "NULL"] := Sql.lexes_word (by decide) (by decide)
  have hcolumn := h.lexes.append_closed (by decide) his
  have htext := (hcolumn.append (closed_negation negated)).append_lexes hnull
  simpa [Condition.fragment, Condition.expr, Expr.tokens, Sql.Predicate.tokens,
    Sql.Property.token] using lexes_ofText (d := d) htext

theorem lexes_isIn (h : c.Plain) (values : List Parameter) (negated : Bool) :
    Fragment.Lexes d ((Condition.isIn c values negated).fragment d)
      ((Condition.isIn c values negated).expr d).tokens := by
  cases values with
  | nil =>
    cases negated with
    | false => exact lexes_ofText lexes_never
    | true => exact lexes_ofText lexes_always
  | cons v vs =>
    have hin : Closed "IN (" [.keyword "IN", .symbol "("] := fun _ => rfl
    have hcomma : Closed ", " [.symbol ","] := fun _ => rfl
    have hright : Closed ")" [.symbol ")"] := fun _ => rfl
    have hcolumn := (h.closed.append (closed_negation negated)).append hin
    have hvalues : Fragment.Lexes d (Fragment.separated ", " ((v :: vs).map ofValue))
        (Expr.separated (.symbol ",") ((v :: vs).map fun _ => .marker)) :=
      Fragment.lexes_separated (by decide) hcomma fun v _ => lexes_ofValue d v
    have hall := ((closed_ofText (d := d) hcolumn).append_lexes hvalues).append_closed
      (breaks_ofText (by decide)) (closed_ofText hright)
    simpa [Condition.fragment, inFragment, Condition.expr, inExpr, Expr.tokens,
      Sql.Predicate.tokens] using hall.lexes

/-- The tokens of the clause that names the escape character. -/
def escapeTokens (escaped : Bool) : List Sql.Token :=
  if escaped then [.keyword "ESCAPE", .text "\\"] else []

theorem lexes_escapeClause {f : Fragment} {ts : List Sql.Token} (h : Fragment.Lexes d f ts)
    (escaped : Bool) :
    Fragment.Lexes d (f ++ escapeClause escaped) (ts ++ escapeTokens escaped) := by
  cases escaped with
  | false => simpa [escapeClause, escapeTokens] using h
  | true =>
    have hescape : Closed " ESCAPE " [.keyword "ESCAPE"] := fun _ => rfl
    have hquoted : Lexes "'\\'" [.text "\\"] := Sql.lexes_quoted rfl (by decide)
    have hclause : Lexes " ESCAPE '\\'" [.keyword "ESCAPE", .text "\\"] := by
      rw [show " ESCAPE '\\'" = " ESCAPE " ++ "'\\'" from rfl]
      exact hescape.append_lexes hquoted
    exact h.append (breaks_ofText (by decide)) (lexes_ofText hclause)

theorem likePredicate_tokens (negated ignoreCase escaped : Bool) (pattern : Expr) :
    (likePredicate negated ignoreCase pattern escaped).tokens =
      Sql.negation negated ++ Sql.likeToken ignoreCase :: pattern.tokens ++
        escapeTokens escaped := by
  cases escaped <;> simp [likePredicate, escapeTokens, Sql.Predicate.tokens, Expr.tokens]

/-- A match of a column as it is. -/
theorem lexes_plainLike (h : c.Plain) (ignoreCase negated : Bool) (v : Parameter) {word : String}
    (hword : Closed word [Sql.likeToken ignoreCase]) :
    Fragment.Lexes d
      (ofText (c.text ++ " " ++ Dialect.negation negated ++ word) ++ ofValue v ++ ofText "")
      (c.expr.tokens ++ (Sql.negation negated ++ [Sql.likeToken ignoreCase, .marker])) := by
  have hcolumn := (h.closed.append (closed_negation negated)).append hword
  have hvalue := (closed_ofText (d := d) hcolumn).append_lexes (lexes_ofValue d v)
  simpa using hvalue.append_empty

/-- A match of a column in lower case. -/
theorem lexes_lowerLike (h : c.Plain) (negated : Bool) (v : Parameter) :
    Fragment.Lexes d
      (ofText ("LOWER(" ++ c.text ++ ") " ++ Dialect.negation negated ++ "LIKE LOWER(") ++
        ofValue v ++ ofText ")")
      ((Expr.call "LOWER" c.expr).tokens ++ (Sql.negation negated ++
        .keyword "LIKE" :: (Expr.call "LOWER" .marker).tokens)) := by
  have hlower : Closed "LOWER(" [.name "LOWER", .symbol "("] := fun _ => rfl
  have hclose : Closed ") " [.symbol ")"] := fun _ => rfl
  have hlike : Closed "LIKE LOWER(" [.keyword "LIKE", .name "LOWER", .symbol "("] := fun _ => rfl
  have hright : Closed ")" [.symbol ")"] := fun _ => rfl
  have hcolumn := (hlower.append_lexes h.lexes).append_closed (by decide) hclose
  have hbefore := (hcolumn.append (closed_negation negated)).append hlike
  have hall := ((closed_ofText (d := d) hbefore).append_lexes (lexes_ofValue d v)).append_closed
    (breaks_ofText (by decide)) (closed_ofText hright)
  simpa [Expr.tokens] using hall.lexes

theorem lexes_like (h : c.Plain) (pattern : String) (ignoreCase escaped negated : Bool) :
    Fragment.Lexes d ((Condition.like c pattern ignoreCase escaped negated).fragment d)
      ((Condition.like c pattern ignoreCase escaped negated).expr d).tokens := by
  have hlike : Closed "LIKE " [.keyword "LIKE"] := fun _ => rfl
  have hilike : Closed "ILIKE " [.keyword "ILIKE"] := fun _ => rfl
  cases ignoreCase with
  | false =>
    have hplain := lexes_plainLike (d := d) h false negated (.text pattern) hlike
    cases d <;> simpa [Condition.fragment, Condition.expr, Dialect.likeAround, Dialect.likeExpr,
      Expr.tokens, likePredicate_tokens, Sql.likeToken] using lexes_escapeClause hplain escaped
  | true =>
    cases d with
    | sqlite =>
      have hlower := lexes_lowerLike (d := .sqlite) h negated (.text pattern)
      simpa [Condition.fragment, Condition.expr, Dialect.likeAround, Dialect.likeExpr, Expr.tokens,
        likePredicate_tokens, Sql.likeToken] using lexes_escapeClause hlower escaped
    | postgres =>
      have hplain := lexes_plainLike (d := .postgres) h true negated (.text pattern) hilike
      simpa [Condition.fragment, Condition.expr, Dialect.likeAround, Dialect.likeExpr, Expr.tokens,
        likePredicate_tokens, Sql.likeToken] using lexes_escapeClause hplain escaped

end Leaves

theorem Condition.fragments_eq_map (d : Dialect) (cs : List Condition) :
    fragments d cs = cs.map (fragment d) := by
  induction cs with
  | nil => rfl
  | cons c cs ih => rw [fragments, ih, List.map_cons]

theorem Condition.exprs_eq_map (d : Dialect) (cs : List Condition) :
    exprs d cs = cs.map (expr d) := by
  induction cs with
  | nil => rfl
  | cons c cs ih => rw [exprs, ih, List.map_cons]

theorem closed_left : Closed "(" [.symbol "("] :=
  fun _ => rfl

theorem closed_right : Closed ")" [.symbol ")"] :=
  fun _ => rfl

theorem closed_and : Closed " AND " [.keyword "AND"] :=
  fun _ => rfl

theorem closed_or : Closed " OR " [.keyword "OR"] :=
  fun _ => rfl

theorem closed_where : Closed " WHERE " [.keyword "WHERE"] :=
  fun _ => rfl

/-- A query up to its joins. -/
theorem lexes_queryHead {selected table aliasName : String} {ts : List Sql.Token}
    (hselected : Lexes selected ts) (htable : IsName table) (halias : IsName aliasName) :
    Lexes ("SELECT " ++ selected ++ " FROM " ++ table ++ " " ++ aliasName)
      (.keyword "SELECT" :: (ts ++ [.keyword "FROM", .name table, .name aliasName])) := by
  have hselect : Closed "SELECT " [.keyword "SELECT"] := fun _ => rfl
  have hfrom : Closed " FROM " [.keyword "FROM"] := fun _ => rfl
  have hblank : Closed " " [] := fun _ => rfl
  have hleft := (hselect.append_lexes hselected).append_closed (by decide) hfrom
  have hmiddle := (hleft.append_lexes htable.lexes).append_closed (by decide) hblank
  simpa using hmiddle.append_lexes halias.lexes

/-- A join up to its condition. -/
theorem closed_joinHead {table aliasName : String} (htable : IsName table)
    (halias : IsName aliasName) :
    Closed (" LEFT JOIN " ++ table ++ " " ++ aliasName ++ " ON ")
      [.keyword "LEFT", .keyword "JOIN", .name table, .name aliasName, .keyword "ON"] := by
  have hjoin : Closed " LEFT JOIN " [.keyword "LEFT", .keyword "JOIN"] := fun _ => rfl
  have hblank : Closed " " [] := fun _ => rfl
  have hon : Closed " ON " [.keyword "ON"] := fun _ => rfl
  have hleft := (hjoin.append_lexes htable.lexes).append_closed (by decide) hblank
  simpa using (hleft.append_lexes halias.lexes).append_closed (by decide) hon

theorem breaks_joinHead (table aliasName : String) :
    Breaks (" LEFT JOIN " ++ table ++ " " ++ aliasName ++ " ON ") := by
  have hjoin : Breaks " LEFT JOIN " := by decide
  exact ((hjoin.append table).append " ").append aliasName |>.append " ON "

theorem lexes_one : Lexes "1" (Expr.number "1").tokens :=
  Sql.lexes_word (by decide) (by decide)

theorem lexes_countRows : Lexes "COUNT(*)" (Expr.callRows "COUNT").tokens :=
  Closed.lexes fun _ => rfl

mutual

/-- The SQL of a plain condition has the tokens of its tree. -/
theorem Condition.Plain.lexes (d : Dialect) : ∀ {c : Condition}, c.Plain →
    Fragment.Lexes d (c.fragment d) (c.expr d).tokens
  | .always, _ => lexes_ofText lexes_always
  | .never, _ => lexes_ofText lexes_never
  | .compare _ op value, h => lexes_compare h op value
  | .sameColumns _ _, h => lexes_sameColumns h.1 h.2
  | .between _ low high, h => lexes_between h low high
  | .like _ pattern ignoreCase escaped negated, h => lexes_like h pattern ignoreCase escaped negated
  | .isIn _ values negated, h => lexes_isIn h values negated
  | .isNull _ negated, h => lexes_isNull h negated
  | .all items, h => by
    rw [Condition.fragment, Condition.expr, Condition.fragments_eq_map, Condition.exprs_eq_map]
    exact Fragment.lexes_grouped (by decide) closed_and lexes_always (Condition.AllPlain.lexes d h)
  | .any items, h => by
    rw [Condition.fragment, Condition.expr, Condition.fragments_eq_map, Condition.exprs_eq_map]
    exact Fragment.lexes_grouped (by decide) closed_or lexes_never (Condition.AllPlain.lexes d h)
  | .not item, h => by
    have hleft : Closed "NOT (" [.keyword "NOT", .symbol "("] := fun _ => rfl
    have hitem := Condition.Plain.lexes d (c := item) h
    have hall := ((closed_ofText hleft).append_lexes hitem).append_closed
      (breaks_ofText (by decide)) (closed_ofText closed_right)
    simpa [Condition.fragment, Condition.expr, Expr.tokens] using hall.lexes
  | .notTrue item, h => by
    have hnot : Closed ") IS NOT " [.symbol ")", .keyword "IS", .keyword "NOT"] := fun _ => rfl
    have htrue : Lexes "TRUE" [.keyword "TRUE"] := Sql.lexes_word (by decide) (by decide)
    have hright : Lexes ") IS NOT TRUE" [.symbol ")", .keyword "IS", .keyword "NOT",
        .keyword "TRUE"] := by
      rw [show ") IS NOT TRUE" = ") IS NOT " ++ "TRUE" from rfl]
      exact hnot.append_lexes htrue
    have hitem := Condition.Plain.lexes d (c := item) h
    have hall := ((closed_ofText closed_left).append_lexes hitem).append
      (breaks_ofText (by decide)) (lexes_ofText hright)
    simpa [Condition.fragment, Condition.expr, Expr.tokens, Sql.Predicate.tokens, Sql.negation,
      Sql.Property.token] using hall
  | .hasRow subquery negated, h => by
    have hexists : Closed "EXISTS (" [.keyword "EXISTS", .symbol "("] := fun _ => rfl
    have hleft := (closed_negation negated).append hexists
    have hquery := Subquery.Plain.lexes d lexes_one (q := subquery) h
    have hall := ((closed_ofText hleft).append_lexes hquery).append_closed
      (breaks_ofText (by decide)) (closed_ofText closed_right)
    cases negated <;>
      simpa [Condition.fragment, Condition.expr, Expr.tokens, Sql.negation] using hall.lexes
  | .rowCount subquery op count, h => by
    have hclose : Closed ") " [.symbol ")"] := fun _ => rfl
    have hop := hclose.append (closed_symbol op)
    rw [← String.append_assoc] at hop
    have hbreaks : Breaks (") " ++ op.symbol ++ " ") := by
      cases op <;> decide
    have hquery := Subquery.Plain.lexes d lexes_countRows (q := subquery) h
    have hleft := ((closed_ofText closed_left).append_lexes hquery).append_closed
      (breaks_ofText hbreaks) (closed_ofText hop)
    simpa [Condition.fragment, Condition.expr, Expr.tokens, Sql.Predicate.tokens] using
      hleft.append_lexes (lexes_ofValue d (.integer count))

theorem Condition.AllPlain.lexes (d : Dialect) : ∀ {cs : List Condition}, Condition.AllPlain cs →
    ∀ c ∈ cs, Fragment.Lexes d (c.fragment d) (c.expr d).tokens
  | [], _ => by simp
  | _ :: _, h => List.forall_mem_cons.2
      ⟨Condition.Plain.lexes d h.1, Condition.AllPlain.lexes d h.2⟩

theorem Subquery.Plain.lexes (d : Dialect) {selected : String} {e : Expr}
    (hselected : Lexes selected e.tokens) : ∀ {q : Subquery}, q.Plain →
    Fragment.Lexes d (q.fragment d selected) (q.query d e).tokens
  | ⟨table, aliasName, joins, correlation, filter⟩,
      ⟨htable, halias, hjoins, hcorrelation, hfilter⟩ => by
    have hhead := lexes_queryHead hselected htable halias
    obtain ⟨hbreaks, hwhere⟩ := Join.AllPlain.lexes d hjoins
    have hall := ((lexes_ofText hhead).append_closed hbreaks hwhere).append_lexes
      (Condition.Plain.lexes d hcorrelation)
    rw [Subquery.fragment, Subquery.query]
    split
    · simpa [Sql.Query.tokens] using hall
    · have hand := (hall.append_closed (breaks_ofText (by decide))
        (closed_ofText closed_and)).append_lexes (Condition.Plain.lexes d hfilter)
      simpa [Sql.Query.tokens, Expr.tokens, Expr.separated, Expr.continued,
        Sql.Connective.token] using hand

theorem Join.AllPlain.lexes (d : Dialect) : ∀ {js : List Join}, Join.AllPlain js →
    Fragment.Breaks d (Join.fragments d js ++ ofText " WHERE ") ∧
      Fragment.Closed d (Join.fragments d js ++ ofText " WHERE ")
        (Sql.Joined.allTokens (Join.joined d js) ++ [.keyword "WHERE"])
  | [], _ => ⟨breaks_ofText (by decide), closed_ofText closed_where⟩
  | ⟨table, aliasName, on⟩ :: js, ⟨htable, halias, hon, hjs⟩ => by
    obtain ⟨hbreaks, hrest⟩ := Join.AllPlain.lexes d hjs
    have hhead := closed_ofText (d := d) (closed_joinHead htable halias)
    have hall := (hhead.append_lexes (Condition.Plain.lexes d hon)).append_closed hbreaks hrest
    rw [Join.fragments]
    refine ⟨?_, by simpa [Join.joined, Sql.Joined.allTokens] using hall⟩
    rw [List.append_assoc, List.append_assoc]
    exact Fragment.breaks_ofText_append (breaks_joinHead table aliasName) _

end

end FilterQuery
