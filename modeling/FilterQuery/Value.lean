import FilterQuery.Json.Basic
import FilterQuery.Calendar.DateText
import FilterQuery.Uuid

/-!
# Values and kinds

`Value` is what a filter holds as an operand, `Parameter` what a statement is run with, and
`ValueKind` the declared kind of a field. `ValueKind.coerce` turns a value into a parameter of a
kind, and answers nothing when the value does not suit the kind.
-/

namespace FilterQuery

/-- A value of a filter, before it is known what the field needs. -/
inductive Value where
  /-- No value. -/
  | null
  /-- A truth value. -/
  | bool (value : Bool)
  /-- An integer of 64 bits with sign. -/
  | integer (value : Int)
  /-- A double-precision number. -/
  | float (value : Binary64)
  /-- A text. -/
  | text (value : String)
  /-- Several values. -/
  | list (items : List Value)
deriving Inhabited

/-- A value that a statement is run with. -/
inductive Parameter where
  /-- The null value. -/
  | null
  /-- A truth value. -/
  | bool (value : Bool)
  /-- An integer of 64 bits with sign. -/
  | integer (value : Int)
  /-- A double-precision number. -/
  | float (value : Binary64)
  /-- A text. -/
  | text (value : String)
  /-- A point in time. -/
  | timestamp (value : Instant)
deriving DecidableEq

/-- The kind of a field. -/
inductive ValueKind where
  /-- Text. -/
  | text
  /-- Integers of 64 bits. -/
  | integer
  /-- Double-precision numbers. -/
  | float
  /-- Truth values. -/
  | boolean
  /-- UUIDs, stored as text in the canonical form. -/
  | uuid
  /-- Points in time. -/
  | datetime
  /-- One of some names, matched with their case. -/
  | enum (variants : List String)
deriving DecidableEq, Repr

/-! ## Reading values -/

/-- The least integer of 64 bits with sign. -/
def minInt64 : Int := -9223372036854775808

/-- The greatest integer of 64 bits with sign. -/
def maxInt64 : Int := 9223372036854775807

namespace Value

/-- A number as a value: an integer where 64 bits with sign hold it, a double otherwise. -/
def ofInteger (n : Int) : Value :=
  if minInt64 ≤ n && n ≤ maxInt64 then .integer n else .float (.ofInt n)

mutual

/-- A JSON value as a value; objects have none. -/
def ofJson? : Json → Option Value
  | .null => some .null
  | .bool b => some (.bool b)
  | .integer n => some (ofInteger n)
  | .float x => some (.float x)
  | .text s => some (.text s)
  | .array items => (ofItems? items).map .list
  | .object _ => none

/-- JSON values as values, when each of them is one. -/
def ofItems? : List Json → Option (List Value)
  | [] => some []
  | j :: js =>
    match ofJson? j, ofItems? js with
    | some v, some vs => some (v :: vs)
    | _, _ => none

end

/-- Whether a value is a truth value. -/
def isBool : Value → Bool
  | .bool _ => true
  | _ => false

/-- Whether a value is a text. -/
def isText : Value → Bool
  | .text _ => true
  | _ => false

end Value

namespace ValueKind

/-! ## Kinds -/

/-- The name of a kind. -/
def name : ValueKind → String
  | .text => "text"
  | .integer => "integer"
  | .float => "float"
  | .boolean => "boolean"
  | .uuid => "uuid"
  | .datetime => "datetime"
  | .enum _ => "enum"

/-- What an operand of a kind looks like, for messages. -/
def expected : ValueKind → String
  | .text => "text"
  | .integer => "an integer"
  | .float => "a number"
  | .boolean => "true or false"
  | .uuid => "a UUID"
  | .datetime => "an ISO 8601 date or timestamp"
  | .enum variants => "one of " ++ ", ".intercalate variants

/-- A value as a parameter of a kind. Integers serve as numbers, texts as UUIDs, as points in time
and as names; nothing else is converted. -/
def coerce (kind : ValueKind) (value : Value) : Option Parameter :=
  match kind, value with
  | .text, .text s => some (.text s)
  | .integer, .integer n => some (.integer n)
  | .float, .integer n => some (.float (.ofInt n))
  | .float, .float x => some (.float x)
  | .boolean, .bool b => some (.bool b)
  | .uuid, .text s => (Uuid.canonical? s).map .text
  | .datetime, .text s => (Instant.ofText? s).map .timestamp
  | .enum variants, .text s => if variants.contains s then some (.text s) else none
  | _, _ => none

end ValueKind

end FilterQuery
