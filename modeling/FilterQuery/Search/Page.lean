import FilterQuery.Search.Query

/-!
# Pages of rows

A page of the rows of a search, with what is needed to go on to the next one.
-/

namespace FilterQuery

/-- A page of rows. -/
structure Page (α : Type) where
  /-- The number of rows on all pages. -/
  total : Nat
  /-- The number of the page, from one. -/
  page : Nat
  /-- The number of rows of a full page. -/
  perPage : Nat
  /-- The rows. -/
  items : List α
  /-- The number of pages, at most the greatest number of 32 bits. -/
  totalPages : Nat
  /-- Whether there is a page after this one. -/
  hasNext : Bool
deriving DecidableEq, Repr

/-- The number of pages of a size that hold a number of rows. A size of zero counts as one. -/
def pageCount (total perPage : Nat) : Nat :=
  let size := max perPage 1
  (total + size - 1) / size

/-- The page that holds some rows. -/
def Page.of {α : Type} (items : List α) (page perPage total : Nat) : Page α :=
  ⟨total, page, perPage, items, min (pageCount total perPage) maxNat32,
    page < pageCount total perPage⟩

end FilterQuery
