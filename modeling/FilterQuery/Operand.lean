import FilterQuery.Operator
import FilterQuery.FilterError

/-!
# Operands

The operand of a field condition. `Operand.ofJson` gives a document's value the shape that the
operator needs, and `Operand.check` decides whether an operand of any shape suits an operator and
the kind of a field.
-/

namespace FilterQuery

/-- What an operator is applied to, beside the field. -/
inductive Operand where
  /-- Nothing. -/
  | nothing
  /-- One value. -/
  | single (value : Value)
  /-- Two values. -/
  | pair (low high : Value)
  /-- Any number of values. -/
  | list (items : List Value)

/-- The greatest number of days that a window of days may have. -/
def maxRelativeDays : Int := 365000

namespace Operand

/-! ## Reading operands -/

/-- The error of a value that does not suit. -/
def mismatch (field : String) (op : Operator) (expected : String) : FilterError :=
  .valueMismatch field op.name expected

/-- Reads a value that is neither null nor composed of others. -/
def scalar (field : String) (op : Operator) (json : Json) : Except FilterError Value :=
  match Value.ofJson? json with
  | some .null => .error (mismatch field op "a non-null scalar value")
  | some (.list _) => .error (mismatch field op "a non-null scalar value")
  | some value => .ok value
  | none => .error (mismatch field op "a non-null scalar value")

/-- Reads several such values. -/
def scalars (field : String) (op : Operator) : List Json → Except FilterError (List Value)
  | [] => .ok []
  | j :: js => do
    let v ← scalar field op j
    let vs ← scalars field op js
    .ok (v :: vs)

/-- Reads the operand of an operator in the shape that the operator needs. An operator without
operands is written with `true` or `null`. -/
def ofJson (field : String) (op : Operator) (json : Json) : Except FilterError Operand :=
  match op.shape with
  | .nothing =>
    match json with
    | .bool true => .ok .nothing
    | .null => .ok .nothing
    | _ => .error (mismatch field op "true")
  | .single =>
    match json with
    | .array _ => .error (mismatch field op "a single value")
    | .object _ => .error (mismatch field op "a single value")
    | json => (scalar field op json).map .single
  | .pair =>
    match json with
    | .array [low, high] => do
      let low ← scalar field op low
      let high ← scalar field op high
      .ok (.pair low high)
    | _ => .error (mismatch field op "a list of two values")
  | .list =>
    match json with
    | .array items => (scalars field op items).map .list
    | _ => .error (mismatch field op "a list of values")

/-! ## Checking operands -/

/-- Whether a number of days is allowed in a window of days. -/
def isDayCount : Value → Bool
  | .integer n => 0 ≤ n && n ≤ maxRelativeDays
  | _ => false

/-- Whether a value suits a kind. -/
def suits (kind : ValueKind) (value : Value) : Bool :=
  (kind.coerce value).isSome

/-- Whether an operand suits an operator and a kind, and what would. -/
def verdict (op : Operator) (kind : ValueKind) (operand : Operand) : Bool × String :=
  match operand with
  | .single value =>
    if op = .isNull then (value.isBool, "true or false")
    else if op = .lastNDays || op = .olderThanDays then
      (isDayCount value, s!"a number of days between 0 and {maxRelativeDays}")
    else if op.isPattern then (value.isText, "text")
    else (op.shape == .single && suits kind value, kind.expected)
  | .nothing => (op.shape == .nothing, "true")
  | .pair low high =>
    (op.shape == .pair && suits kind low && suits kind high, "a pair of " ++ kind.expected)
  | .list items =>
    (op.shape == .list && items.all (suits kind), "a list of " ++ kind.expected)

/-- Checks an operand against an operator and the kind of a field. -/
def check (field : String) (op : Operator) (kind : ValueKind) (operand : Operand) :
    Except FilterError Unit :=
  let (valid, expected) := verdict op kind operand
  if valid then .ok () else .error (mismatch field op expected)

end Operand

end FilterQuery
