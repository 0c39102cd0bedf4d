import FilterQuery.Json.Basic

/-!
# Writing JSON documents

Two forms: `compact`, without any space, for values that are quoted in messages, and `pretty`,
with each member and item on a line of its own, for output that people read. Both escape only
what must be escaped: the quote, the backslash and the control characters below `U+0020`.
-/

namespace FilterQuery.Json

/-! ## Strings -/

/-- A hexadecimal digit in lower case. -/
def hexDigit (n : Nat) : Char :=
  if n < 10 then Char.ofNat ('0'.toNat + n) else Char.ofNat ('a'.toNat + (n - 10))

/-- A character as it stands inside a string. -/
def escape (c : Char) : List Char :=
  match c with
  | '"' => ['\\', '"']
  | '\\' => ['\\', '\\']
  | '\x08' => ['\\', 'b']
  | '\x0c' => ['\\', 'f']
  | '\n' => ['\\', 'n']
  | '\r' => ['\\', 'r']
  | '\t' => ['\\', 't']
  | c =>
    if c.toNat < 0x20 then
      ['\\', 'u', '0', '0', hexDigit (c.toNat / 16), hexDigit (c.toNat % 16)]
    else [c]

/-- A string between its quotes. -/
def quote (s : String) : String :=
  String.ofList ('"' :: s.toList.flatMap escape ++ ['"'])

/-! ## Compact form -/

/-- A value that is neither an array nor an object. -/
def scalarText : Json → String
  | .null => "null"
  | .bool true => "true"
  | .bool false => "false"
  | .integer n => toString n
  | .float x => if x.isFinite then x.text else "null"
  | .text s => quote s
  | .array _ => ""
  | .object _ => ""

mutual

/-- A value without any space. -/
def compact : Json → String
  | .array items => "[" ++ compactItems true items ++ "]"
  | .object members => "\x7b" ++ compactMembers true members ++ "\x7d"
  | scalar => scalarText scalar

/-- The items of an array, each but the first after a comma. -/
def compactItems (first : Bool) : List Json → String
  | [] => ""
  | v :: vs => (if first then "" else ",") ++ compact v ++ compactItems false vs

/-- The members of an object, each but the first after a comma. -/
def compactMembers (first : Bool) : List (String × Json) → String
  | [] => ""
  | (name, v) :: ms =>
    (if first then "" else ",") ++ quote name ++ ":" ++ compact v ++ compactMembers false ms

end

/-! ## Indented form -/

/-- The start of a line at a depth, two spaces for each level. -/
def lineStart (depth : Nat) : String :=
  String.ofList ('\n' :: List.replicate (2 * depth) ' ')

mutual

/-- A value whose parts stand on lines of their own, at a depth. -/
def indented (depth : Nat) : Json → String
  | .array [] => "[]"
  | .object [] => "\x7b\x7d"
  | .array items => "[" ++ indentedItems (depth + 1) true items ++ lineStart depth ++ "]"
  | .object members =>
    "\x7b" ++ indentedMembers (depth + 1) true members ++ lineStart depth ++ "\x7d"
  | scalar => scalarText scalar

/-- The items of an array, each on its line. -/
def indentedItems (depth : Nat) (first : Bool) : List Json → String
  | [] => ""
  | v :: vs =>
    (if first then "" else ",") ++ lineStart depth ++ indented depth v ++
      indentedItems depth false vs

/-- The members of an object, each on its line. -/
def indentedMembers (depth : Nat) (first : Bool) : List (String × Json) → String
  | [] => ""
  | (name, v) :: ms =>
    (if first then "" else ",") ++ lineStart depth ++ quote name ++ ": " ++ indented depth v ++
      indentedMembers depth false ms

end

/-- A document with two spaces of indentation for each level. -/
def pretty (json : Json) : String :=
  indented 0 json

end FilterQuery.Json
