import FilterQuery.Filter.Tree
import FilterQuery.Text.Blank

/-!
# Queries for pages of rows

A query asks for one page of the rows that a filter selects, in an order. Queries come as JSON
documents: an object, of which unknown members are ignored, or an array of its four parts in
order. Missing parts have default values. `PageQuery.check` says whether the page exists at all.
-/

namespace FilterQuery

/-- The greatest natural number of 32 bits. -/
def maxNat32 : Nat := Nat.pow 2 32 - 1

/-- The greatest natural number of 64 bits. -/
def maxNat64 : Nat := Nat.pow 2 64 - 1

/-- The page that is asked for unless another is. -/
def defaultPage : Nat := 1

/-- The number of rows of a page unless another is given. -/
def defaultPerPage : Nat := 10

/-- The greatest number of rows of a page. -/
def maxPerPage : Nat := 500

/-! ## Orderings -/

/-- A direction of order. -/
inductive Direction where
  /-- Small values first. -/
  | asc
  /-- Great values first. -/
  | desc
deriving DecidableEq, Repr

/-- The word for a direction. -/
def Direction.name : Direction → String
  | .asc => "asc"
  | .desc => "desc"

/-- The direction that a word names. -/
def Direction.ofName? (name : String) : Option Direction :=
  if name = "asc" then some .asc else if name = "desc" then some .desc else none

/-- An order by one field. -/
structure OrderBy where
  /-- The field. -/
  field : String
  /-- The direction. -/
  direction : Direction
deriving DecidableEq, Repr

namespace OrderBy

/-- Reads an ordering: a field that is not empty, and after a colon perhaps a direction. Without it
great values come first. -/
def ofText (s : String) : Except FilterError OrderBy :=
  match (Text.splitAt ':' s.toList).map String.ofList with
  | [field] => if field = "" then fail else .ok ⟨field, .desc⟩
  | [field, word] =>
    match Direction.ofName? word with
    | some direction => if field = "" then fail else .ok ⟨field, direction⟩
    | none => fail
  | _ => fail
where
  /-- The error of a text that is no ordering. -/
  fail : Except FilterError OrderBy := .error (.invalidPagination (.order s))

/-- Reads a direction: its word, or an object whose only member has the word as its name and null
as its value. -/
def directionOfJson? : Json → Option Direction
  | .text s => Direction.ofName? s
  | .object [(name, .null)] => Direction.ofName? name
  | _ => none

/-- Reads an ordering: a text, or an object with a field and perhaps a direction. -/
def ofJson? : Json → Option OrderBy
  | .text s => (ofText s).toOption
  | .object members =>
    match Json.lookup "field" members with
    | some (.text field) =>
      match Json.lookup "direction" members with
      | none => some ⟨field, .desc⟩
      | some direction => (directionOfJson? direction).map fun d => ⟨field, d⟩
    | _ => none
  | _ => none

/-- Reads several orderings. -/
def listOfJson? : List Json → Option (List OrderBy)
  | [] => some []
  | j :: js => do
    let o ← ofJson? j
    let os ← listOfJson? js
    some (o :: os)

end OrderBy

/-! ## Queries -/

/-- A filter as it comes with a query. -/
inductive FilterInput where
  /-- A document that is still to be read. -/
  | document (json : Json)
  /-- A filter. -/
  | filter (filter : Filter)

/-- A query for a page of rows. -/
structure PageQuery where
  /-- The number of the page, from one. -/
  page : Nat
  /-- The number of rows of a page. -/
  perPage : Nat
  /-- The orderings, the most important first. -/
  orderBy : List OrderBy
  /-- The filter, if there is one. -/
  filter : Option FilterInput

namespace PageQuery

/-- The query for the first page of all rows. -/
def default : PageQuery :=
  ⟨defaultPage, defaultPerPage, [], none⟩

/-- Reads a natural number of 32 bits. -/
def nat32OfJson? : Json → Option Nat
  | .integer n => if 0 ≤ n && n ≤ maxNat32 then some n.toNat else none
  | _ => none

/-- Reads a part that may be missing. -/
def orDefault {α : Type} (value : α) (read : Json → Option α) : Option Json → Option α
  | none => some value
  | some json => read json

/-- Reads the orderings of a query. -/
def orderOfJson? : Json → Option (List OrderBy)
  | .array items => OrderBy.listOfJson? items
  | _ => none

/-- Reads the filter of a query; null is no filter. -/
def filterOfJson? : Json → Option (Option FilterInput)
  | .null => some none
  | json => some (some (.document json))

/-- Reads a query from its four parts, each of which may be missing. -/
def ofParts? (page perPage order filter : Option Json) : Option PageQuery := do
  let page ← orDefault defaultPage nat32OfJson? page
  let perPage ← orDefault defaultPerPage nat32OfJson? perPage
  let order ← orDefault [] orderOfJson? order
  let filter ← orDefault none filterOfJson? filter
  some ⟨page, perPage, order, filter⟩

/-- Reads a query from a document. -/
def ofJson? : Json → Option PageQuery
  | .object members =>
    ofParts? (Json.lookup "page" members) (Json.lookup "per_page" members)
      (Json.lookup "order_by" members) (Json.lookup "filter" members)
  | .array items =>
    if items.length ≤ 4 then ofParts? items[0]? items[1]? items[2]? items[3]? else none
  | _ => none

/-- Checks that the page is at least one and has at least one and at most `maxPerPage` rows. -/
def check (q : PageQuery) : Except FilterError Unit :=
  let pageFits := 1 ≤ q.page
  let perPageFits := 1 ≤ q.perPage && q.perPage ≤ maxPerPage
  if pageFits && perPageFits then .ok ()
  else if pageFits then .error (.invalidPagination (.perPage maxPerPage))
  else if perPageFits then .error (.invalidPagination .page)
  else .error (.invalidPagination (.pageAndPerPage maxPerPage))

/-- The number of rows before the page. -/
def offset (q : PageQuery) : Nat :=
  (q.page - 1) * q.perPage

end PageQuery

end FilterQuery
