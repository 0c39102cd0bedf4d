import FilterQuery.Proofs.Sql.Token

/-!
# Syntax trees of SQL

The second step of reading SQL finds the syntax tree of the tokens. A tree keeps its parentheses.
What may stand where is a matter of levels: the operands of a predicate are operands, `NOT` stands
before a predicate or another `NOT`, `AND` between what is at least at the level of `NOT`, and `OR`
between what is at least at the level of `AND` (`Expr.WellFormed`). A text reads as a tree when the
tree is well formed and its tokens are those of the text (`Reads`).
-/

namespace FilterQuery.Sql

/-! ## Trees -/

/-- A word that connects conditions. -/
inductive Connective where
  /-- Every one holds. -/
  | and
  /-- One of them holds. -/
  | or
deriving DecidableEq, Repr

/-- What `IS` asks about. -/
inductive Property where
  /-- Being null. -/
  | null
  /-- Being true. -/
  | true
deriving DecidableEq, Repr

mutual

/-- An expression. -/
inductive Expr where
  /-- A column of a table. -/
  | column (table column : String)
  /-- A parameter. -/
  | marker
  /-- A number. -/
  | number (digits : String)
  /-- A text. -/
  | text (text : String)
  /-- A function of an expression. -/
  | call (function : String) (argument : Expr)
  /-- A function of the rows. -/
  | callRows (function : String)
  /-- An expression in parentheses. -/
  | group (inner : Expr)
  /-- The value of a subquery. -/
  | value (query : Query)
  /-- A predicate of an operand. -/
  | test (operand : Expr) (predicate : Predicate)
  /-- Whether a subquery has rows. -/
  | hasRows (query : Query)
  /-- The negation of an expression. -/
  | not (inner : Expr)
  /-- Expressions with a connective between them. -/
  | chain (op : Connective) (items : List Expr)

/-- What is said of the operand of a predicate. -/
inductive Predicate where
  /-- It compares with another operand. -/
  | compare (op : Comparison) (right : Expr)
  /-- It has a property. -/
  | is (negated : Bool) (property : Property)
  /-- It lies between two others. -/
  | between (negated : Bool) (low high : Expr)
  /-- It matches a pattern. -/
  | like (negated ignoreCase : Bool) (pattern : Expr)
  /-- It matches a pattern with an escape character. -/
  | likeEscaped (negated ignoreCase : Bool) (pattern escape : Expr)
  /-- It is one of some items. -/
  | isIn (negated : Bool) (items : List Expr)

/-- A query for an expression on the rows of a table and its joins. -/
structure Query where
  /-- The expression. -/
  selected : Expr
  /-- The table. -/
  table : String
  /-- The alias of its rows. -/
  aliasName : String
  /-- The joins. -/
  joins : List Joined
  /-- The condition on the rows. -/
  condition : Expr

/-- A left outer join with a table. -/
structure Joined where
  /-- The table. -/
  table : String
  /-- The alias of its rows. -/
  aliasName : String
  /-- The condition of the join. -/
  on : Expr

end

/-! ## Levels -/

/-- The levels of expressions, from the one that binds least. -/
inductive Level where
  /-- Expressions with `OR` between them. -/
  | or
  /-- Expressions with `AND` between them. -/
  | and
  /-- Negations. -/
  | not
  /-- Predicates. -/
  | predicate
  /-- Operands. -/
  | operand
deriving DecidableEq, Repr

/-- The place of a level among the levels. -/
@[simp] def Level.rank : Level → Nat
  | .or => 0
  | .and => 1
  | .not => 2
  | .predicate => 3
  | .operand => 4

instance : LE Level :=
  ⟨fun l m => l.rank ≤ m.rank⟩

instance (l m : Level) : Decidable (l ≤ m) :=
  inferInstanceAs (Decidable (l.rank ≤ m.rank))

@[simp] theorem Level.le_iff {l m : Level} : l ≤ m ↔ l.rank ≤ m.rank :=
  Iff.rfl

namespace Connective

/-- The level of expressions with a connective between them. -/
@[simp] def level : Connective → Level
  | .and => .and
  | .or => .or

/-- The level that the expressions must have between which a connective stands. -/
@[simp] def itemLevel : Connective → Level
  | .and => .not
  | .or => .and

/-- A connective as a token. -/
def token : Connective → Token
  | .and => .keyword "AND"
  | .or => .keyword "OR"

end Connective

/-- The level of an expression. -/
@[simp] def Expr.level : Expr → Level
  | .test _ _ => .predicate
  | .hasRows _ => .predicate
  | .not _ => .not
  | .chain op _ => op.level
  | _ => .operand

mutual

/-- An expression whose parts have the levels that their places ask for. -/
def Expr.WellFormed : Expr → Prop
  | .column _ _ => True
  | .marker => True
  | .number _ => True
  | .text _ => True
  | .call _ argument => argument.WellFormed
  | .callRows _ => True
  | .group inner => inner.WellFormed
  | .value query => query.WellFormed
  | .test operand predicate =>
    .operand ≤ operand.level ∧ operand.WellFormed ∧ predicate.WellFormed
  | .hasRows query => query.WellFormed
  | .not inner => .not ≤ inner.level ∧ inner.WellFormed
  | .chain op items => 2 ≤ items.length ∧ Expr.AllWellFormed op.itemLevel items

/-- A predicate whose parts have the levels that their places ask for. -/
def Predicate.WellFormed : Predicate → Prop
  | .compare _ right => .operand ≤ right.level ∧ right.WellFormed
  | .is _ _ => True
  | .between _ low high =>
    (.operand ≤ low.level ∧ low.WellFormed) ∧ .operand ≤ high.level ∧ high.WellFormed
  | .like _ _ pattern => .operand ≤ pattern.level ∧ pattern.WellFormed
  | .likeEscaped _ _ pattern escape =>
    (.operand ≤ pattern.level ∧ pattern.WellFormed) ∧ .operand ≤ escape.level ∧ escape.WellFormed
  | .isIn _ items => items ≠ [] ∧ Expr.AllWellFormed .or items

/-- A query whose parts have the levels that their places ask for. -/
def Query.WellFormed : Query → Prop
  | ⟨selected, _, _, joins, condition⟩ =>
    selected.WellFormed ∧ Joined.AllWellFormed joins ∧ condition.WellFormed

/-- Expressions of at least a level. -/
def Expr.AllWellFormed (l : Level) : List Expr → Prop
  | [] => True
  | e :: es => (l ≤ e.level ∧ e.WellFormed) ∧ Expr.AllWellFormed l es

/-- Joins with well-formed conditions. -/
def Joined.AllWellFormed : List Joined → Prop
  | [] => True
  | ⟨_, _, on⟩ :: js => on.WellFormed ∧ Joined.AllWellFormed js

end

/-- A well-formed expression of at least a level. -/
def Expr.Fits (l : Level) (e : Expr) : Prop :=
  l ≤ e.level ∧ e.WellFormed

/-! ## Tokens of trees -/

/-- The token of a negation, or nothing. -/
def negation (negated : Bool) : List Token :=
  if negated then [.keyword "NOT"] else []

/-- A property as a token. -/
def Property.token : Property → Token
  | .null => .keyword "NULL"
  | .true => .keyword "TRUE"

/-- The token of a match, with or without regard to case. -/
def likeToken (ignoreCase : Bool) : Token :=
  if ignoreCase then .keyword "ILIKE" else .keyword "LIKE"

mutual

/-- The tokens of an expression. -/
def Expr.tokens : Expr → List Token
  | .column table column => [.name table, .symbol ".", .name column]
  | .marker => [.marker]
  | .number digits => [.number digits]
  | .text text => [.text text]
  | .call function argument =>
    .name function :: .symbol "(" :: (argument.tokens ++ [.symbol ")"])
  | .callRows function => [.name function, .symbol "(", .symbol "*", .symbol ")"]
  | .group inner => .symbol "(" :: (inner.tokens ++ [.symbol ")"])
  | .value query => .symbol "(" :: (query.tokens ++ [.symbol ")"])
  | .test operand predicate => operand.tokens ++ predicate.tokens
  | .hasRows query => .keyword "EXISTS" :: .symbol "(" :: (query.tokens ++ [.symbol ")"])
  | .not inner => .keyword "NOT" :: inner.tokens
  | .chain op items => Expr.separated op.token items

/-- The tokens of a predicate, which stand after those of its operand. -/
def Predicate.tokens : Predicate → List Token
  | .compare op right => .symbol op.symbol :: right.tokens
  | .is negated property => .keyword "IS" :: (negation negated ++ [property.token])
  | .between negated low high =>
    negation negated ++ .keyword "BETWEEN" :: (low.tokens ++ .keyword "AND" :: high.tokens)
  | .like negated ignoreCase pattern => negation negated ++ likeToken ignoreCase :: pattern.tokens
  | .likeEscaped negated ignoreCase pattern escape =>
    negation negated ++ likeToken ignoreCase ::
      (pattern.tokens ++ .keyword "ESCAPE" :: escape.tokens)
  | .isIn negated items =>
    negation negated ++ .keyword "IN" :: .symbol "(" ::
      (Expr.separated (.symbol ",") items ++ [.symbol ")"])

/-- The tokens of a query. -/
def Query.tokens : Query → List Token
  | ⟨selected, table, aliasName, joins, condition⟩ =>
    .keyword "SELECT" :: (selected.tokens ++ .keyword "FROM" :: .name table :: .name aliasName ::
      (Joined.allTokens joins ++ .keyword "WHERE" :: condition.tokens))

/-- The tokens of expressions with a token between them. -/
def Expr.separated (separator : Token) : List Expr → List Token
  | [] => []
  | e :: es => e.tokens ++ Expr.continued separator es

/-- The tokens of expressions with a token before each. -/
def Expr.continued (separator : Token) : List Expr → List Token
  | [] => []
  | e :: es => separator :: (e.tokens ++ Expr.continued separator es)

/-- The tokens of joins. -/
def Joined.allTokens : List Joined → List Token
  | [] => []
  | ⟨table, aliasName, on⟩ :: js =>
    .keyword "LEFT" :: .keyword "JOIN" :: .name table :: .name aliasName :: .keyword "ON" ::
      (on.tokens ++ Joined.allTokens js)

end

/-- A text reads as an expression: this is well formed and has the tokens of the text. -/
def Reads (text : String) (e : Expr) : Prop :=
  e.WellFormed ∧ lex text.toList = e.tokens

end FilterQuery.Sql
