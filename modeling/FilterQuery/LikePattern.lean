/-!
# LIKE patterns

Patterns of the SQL `LIKE` test in which a piece of text stands for itself: the characters `%`,
`_` and the escape character `\` are escaped, and `%` stands where anything may precede or follow.
-/

namespace FilterQuery.LikePattern

/-- The escape character of the patterns built here. -/
def escapeChar : Char := '\\'

/-- Whether a character has a meaning of its own in a pattern. -/
def isSpecial (c : Char) : Bool :=
  c == '%' || c == '_' || c == escapeChar

/-- A text with its special characters escaped. -/
def escape : List Char → List Char
  | [] => []
  | c :: cs => if isSpecial c then escapeChar :: c :: escape cs else c :: escape cs

/-- Where a literal text must stand inside the text that is tested. -/
inductive Position where
  /-- Anywhere. -/
  | anywhere
  /-- At the start. -/
  | atStart
  /-- At the end. -/
  | atEnd
deriving DecidableEq, Repr

/-- The pattern of the texts that hold a literal text at a position. -/
def literal (position : Position) (s : List Char) : List Char :=
  match position with
  | .anywhere => '%' :: escape s ++ ['%']
  | .atStart => escape s ++ ['%']
  | .atEnd => '%' :: escape s

/-- A text with its special characters escaped. -/
def escapeText (s : String) : String :=
  String.ofList (escape s.toList)

/-- The pattern of the texts that hold a literal text at a position. -/
def literalText (position : Position) (s : String) : String :=
  String.ofList (literal position s.toList)

/-- The number of parameter markers `?` in a piece of SQL. -/
def countMarkers (sql : String) : Nat :=
  sql.toList.count '?'

end FilterQuery.LikePattern
