import FilterQuery.Value

/-!
# Operators of field conditions

The tests that a filter can put to a field: their names in documents, how many operands they take,
and which kinds of fields have them.
-/

namespace FilterQuery

/-- A test on a field. -/
inductive Operator where
  /-- Equal. -/
  | eq
  /-- Not equal. -/
  | ne
  /-- Greater. -/
  | gt
  /-- Greater or equal. -/
  | gte
  /-- Less. -/
  | lt
  /-- Less or equal. -/
  | lte
  /-- Earlier. -/
  | before
  /-- Later. -/
  | after
  /-- Between two values, both included. -/
  | between
  /-- Matching a pattern. -/
  | like
  /-- Matching a pattern without regard to case. -/
  | ilike
  /-- Not matching a pattern. -/
  | notLike
  /-- Holding a text. -/
  | contains
  /-- Holding a text without regard to case. -/
  | icontains
  /-- Not holding a text. -/
  | notContains
  /-- Beginning with a text. -/
  | startsWith
  /-- Ending with a text. -/
  | endsWith
  /-- One of some values. -/
  | isIn
  /-- None of some values. -/
  | notIn
  /-- Null, or not. -/
  | isNull
  /-- In the current day. -/
  | today
  /-- In the day before. -/
  | yesterday
  /-- In the current week. -/
  | thisWeek
  /-- In the week before. -/
  | lastWeek
  /-- In the current month. -/
  | thisMonth
  /-- In the month before. -/
  | lastMonth
  /-- In the current year. -/
  | thisYear
  /-- In the year before. -/
  | lastYear
  /-- In the last days, a number of them. -/
  | lastNDays
  /-- Before the last days, a number of them. -/
  | olderThanDays
deriving DecidableEq, Repr

/-- How many operands an operator takes. -/
inductive OperandShape where
  /-- None. -/
  | nothing
  /-- One. -/
  | single
  /-- Two. -/
  | pair
  /-- Any number. -/
  | list
deriving DecidableEq, Repr

namespace Operator

/-! ## Names -/

/-- Every operator. -/
def all : List Operator :=
  [.eq, .ne, .gt, .gte, .lt, .lte, .before, .after, .between, .like, .ilike, .notLike, .contains,
    .icontains, .notContains, .startsWith, .endsWith, .isIn, .notIn, .isNull, .today, .yesterday,
    .thisWeek, .lastWeek, .thisMonth, .lastMonth, .thisYear, .lastYear, .lastNDays,
    .olderThanDays]

/-- The name of an operator in documents. -/
def name : Operator → String
  | .eq => "eq"
  | .ne => "ne"
  | .gt => "gt"
  | .gte => "gte"
  | .lt => "lt"
  | .lte => "lte"
  | .before => "before"
  | .after => "after"
  | .between => "between"
  | .like => "like"
  | .ilike => "ilike"
  | .notLike => "not_like"
  | .contains => "contains"
  | .icontains => "icontains"
  | .notContains => "not_contains"
  | .startsWith => "startswith"
  | .endsWith => "endswith"
  | .isIn => "in"
  | .notIn => "not_in"
  | .isNull => "is_null"
  | .today => "today"
  | .yesterday => "yesterday"
  | .thisWeek => "this_week"
  | .lastWeek => "last_week"
  | .thisMonth => "this_month"
  | .lastMonth => "last_month"
  | .thisYear => "this_year"
  | .lastYear => "last_year"
  | .lastNDays => "last_n_days"
  | .olderThanDays => "older_than_days"

/-- A second name of `isIn`, for languages in which its name is a word of their own. -/
def isInAlias : String := "in_"

/-- The operator with a name. -/
def ofName? (name : String) : Option Operator :=
  if name = isInAlias then some .isIn else all.find? fun op => op.name == name

/-- Whether a key of a document names an operator. -/
def isName (key : String) : Bool :=
  (ofName? key).isSome

/-! ## Classes -/

/-- Whether an operator names a window of time that depends on the clock. -/
def isRelativeDate : Operator → Bool
  | .today | .yesterday | .thisWeek | .lastWeek | .thisMonth | .lastMonth | .thisYear | .lastYear
  | .lastNDays | .olderThanDays => true
  | _ => false

/-- Whether the operand of an operator is a text to match. -/
def isPattern : Operator → Bool
  | .like | .ilike | .notLike | .contains | .icontains | .notContains | .startsWith
  | .endsWith => true
  | _ => false

/-- Whether an operator tests equality, membership or nullness, which every kind of names has. -/
def isEquality : Operator → Bool
  | .eq | .ne | .isIn | .notIn | .isNull => true
  | _ => false

/-- Whether an operator compares by order. -/
def isOrdering : Operator → Bool
  | .gt | .gte | .lt | .lte | .between => true
  | _ => false

/-- How many operands an operator takes. -/
def shape : Operator → OperandShape
  | .between => .pair
  | .isIn | .notIn => .list
  | .today | .yesterday | .thisWeek | .lastWeek | .thisMonth | .lastMonth | .thisYear
  | .lastYear => .nothing
  | _ => .single

/-- Whether the fields of a kind have an operator. -/
def supports (op : Operator) (kind : ValueKind) : Bool :=
  match kind with
  | .text => op.isPattern || op.isEquality
  | .integer | .float => op.isOrdering || op.isEquality
  | .boolean => op == .eq || op == .ne || op == .isNull
  | .uuid | .enum _ => op.isEquality
  | .datetime =>
    op.isRelativeDate || op.isOrdering || op.isEquality || op == .before || op == .after

end Operator

end FilterQuery
