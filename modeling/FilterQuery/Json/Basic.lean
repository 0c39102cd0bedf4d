import FilterQuery.Binary64

/-!
# JSON values

The values of JSON documents. Numbers are either integers of at most 64 bits or double-precision
numbers, as their literals decide. Objects keep their members in the order of the document.
-/

namespace FilterQuery

/-- A JSON value. -/
inductive Json where
  /-- The literal `null`. -/
  | null
  /-- A truth value. -/
  | bool (value : Bool)
  /-- A number written without fraction and exponent that fits 64 bits. -/
  | integer (value : Int)
  /-- Any other number. -/
  | float (value : Binary64)
  /-- A string. -/
  | text (value : String)
  /-- An array. -/
  | array (items : List Json)
  /-- An object, its members in order. -/
  | object (members : List (String × Json))
deriving Inhabited

namespace Json

/-- The value of the first member with a name. -/
def lookup (name : String) : List (String × Json) → Option Json
  | [] => none
  | m :: ms => if m.1 = name then some m.2 else lookup name ms

/-- The value of an object's member. -/
def member? (name : String) : Json → Option Json
  | .object members => lookup name members
  | _ => none

/-- Replaces the value of the member with a name where it stands, or adds the member at the end. -/
def putMember (name : String) (value : Json) : List (String × Json) → List (String × Json)
  | [] => [(name, value)]
  | m :: ms => if m.1 = name then (name, value) :: ms else m :: putMember name value ms

/-- Members in order of first occurrence, each with the value of its last occurrence. -/
def mergeMembers (members : List (String × Json)) : List (String × Json) :=
  members.foldl (fun acc m => putMember m.1 m.2 acc) []

end Json

end FilterQuery
