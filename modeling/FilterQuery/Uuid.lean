import FilterQuery.Text.Blank

/-!
# UUIDs as text

A UUID is 32 hexadecimal digits. Four spellings are read: the digits alone, the digits in groups
of 8, 4, 4, 4 and 12 with hyphens between them, that form in braces, and that form after
`urn:uuid:`. All are written in one: lower case, in groups.
-/

namespace FilterQuery.Uuid

/-- A hexadecimal digit in lower case; nothing for any other character. -/
def hexDigit? (c : Char) : Option Char :=
  if ('0' ≤ c && c ≤ '9') || ('a' ≤ c && c ≤ 'f') then some c
  else if 'A' ≤ c && c ≤ 'F' then some c.toLower
  else none

/-- Reads hexadecimal digits up to the end of a text. -/
def hexDigits : List Char → Option (List Char)
  | [] => some []
  | c :: cs => do
    let d ← hexDigit? c
    let ds ← hexDigits cs
    some (d :: ds)

/-- The sizes of the groups of digits. -/
def groupSizes : List Nat := [8, 4, 4, 4, 12]

/-- Writes digits in groups of given sizes with hyphens between them. -/
def grouped : List Nat → List Char → List Char
  | [], _ => []
  | [n], ds => ds.take n
  | n :: ns, ds => ds.take n ++ '-' :: grouped ns (ds.drop n)

/-- Takes the hyphens out of a text whose digits stand in groups of given sizes. -/
def ungrouped : List Nat → List Char → Option (List Char)
  | [], s => if s.isEmpty then some [] else none
  | [n], s => if s.length = n then some s else none
  | n :: ns, s =>
    match s.drop n with
    | '-' :: rest => (ungrouped ns rest).map (s.take n ++ ·)
    | _ => none

/-- The digits of the grouped form. -/
def ofGrouped? (s : List Char) : Option (List Char) :=
  (ungrouped groupSizes s).bind hexDigits

/-- The opening of the form after a scheme, in lower case. -/
def schemeHead : List Char := "urn:uuid:".toList

/-- The digits of a UUID in any of its spellings. -/
def digits? (s : List Char) : Option (List Char) :=
  if s.length = 32 then hexDigits s
  else if s.length = 36 then ofGrouped? s
  else if s.length = 38 then
    match s with
    | '\x7b' :: rest => if rest.getLast? = some '\x7d' then ofGrouped? rest.dropLast else none
    | _ => none
  else if s.length = 45 && Text.lowerAscii (s.take 9) == schemeHead then ofGrouped? (s.drop 9)
  else none

/-- The canonical spelling of a UUID that a text spells in any way. -/
def canonical? (s : String) : Option String :=
  (digits? s.toList).map fun ds => String.ofList (grouped groupSizes ds)

end FilterQuery.Uuid
