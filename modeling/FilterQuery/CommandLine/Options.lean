import FilterQuery.Search.Query
import FilterQuery.Statement.Dialect
import FilterQuery.Text.Blank

/-!
# Options of the command line

The options that the program and its commands know, which values they take, and the environment
variables that stand in for them. A value is accepted when the reader of its rule succeeds.
-/

namespace FilterQuery

/-! ## Values -/

/-- What an option takes as its value. -/
inductive ValueRule where
  /-- Nothing; the option is given or not. -/
  | flag
  /-- Any text. -/
  | text
  /-- A text that is not empty. -/
  | path
  /-- The name of a dialect. -/
  | dialect
  /-- A natural number of 64 bits. -/
  | nat64
  /-- A natural number of 32 bits. -/
  | nat32
deriving DecidableEq, Repr

namespace ValueRule

/-- The number that decimal digits write; there must be at least one. -/
def digits? (s : List Char) : Option Nat :=
  if s.isEmpty || !s.all Char.isDigit then none
  else some (s.foldl (fun n c => 10 * n + (c.toNat - '0'.toNat)) 0)

/-- Reads a natural number of 64 bits, which may have a plus sign. -/
def nat64? (s : String) : Option Nat := do
  let n ← match s.toList with
    | '+' :: cs => digits? cs
    | cs => digits? cs
  if n ≤ maxNat64 then some n else none

/-- Reads a natural number of 32 bits, which may have a sign; only zero may have a minus sign. -/
def nat32? (s : String) : Option Nat := do
  let n ← match s.toList with
    | '+' :: cs => digits? cs
    | '-' :: cs => (digits? cs).filter (· == 0)
    | cs => digits? cs
  if n ≤ maxNat32 then some n else none

/-- Reads the name of a dialect in letters of either case. -/
def dialect? (s : String) : Option Dialect :=
  let name := String.ofList (Text.lowerAscii s.toList)
  if name = "sqlite" then some .sqlite
  else if name = "postgres" || name = "postgresql" then some .postgres
  else none

/-- Reads a truth value. -/
def bool? (s : String) : Option Bool :=
  if s = "true" then some true else if s = "false" then some false else none

/-- Whether a value is accepted. -/
def accepts : ValueRule → String → Bool
  | .flag, s => (bool? s).isSome
  | .text, _ => true
  | .path, s => !s.isEmpty
  | .dialect, s => (dialect? s).isSome
  | .nat64, s => (nat64? s).isSome
  | .nat32, s => (nat32? s).isSome

end ValueRule

/-! ## Options -/

/-- An option. -/
inductive CommandOption where
  /-- Whether additional details are written. -/
  | debug
  /-- The path of a settings file. -/
  | config
  /-- The dialect of statements. -/
  | backend
  /-- The address of the database. -/
  | databaseUrl
  /-- The greatest length of a filter's text. -/
  | maxFilterBytes
  /-- How deeply the objects of a filter may be nested. -/
  | maxFilterDepth
  /-- The greatest number of conditions of a filter. -/
  | maxFilterConditions
  /-- The number of rows of a page unless a command gives it. -/
  | defaultPerPage
  /-- The greatest number of rows of a page. -/
  | maxPerPage
  /-- The entity whose rows are selected. -/
  | entity
  /-- The text of the filter. -/
  | filter
  /-- The path of a file with the text of the filter. -/
  | file
  /-- The number of the page. -/
  | page
  /-- The number of rows of a page. -/
  | perPage
  /-- A field to order by. -/
  | orderBy
deriving DecidableEq, Repr

namespace CommandOption

/-- The options that may stand before and after the command. -/
def shared : List CommandOption :=
  [.debug, .config, .backend, .databaseUrl, .maxFilterBytes, .maxFilterDepth,
    .maxFilterConditions, .defaultPerPage, .maxPerPage]

/-- The options that say where a filter comes from. -/
def ofSource : List CommandOption :=
  [.filter, .file]

/-- The options of a search. -/
def ofSearch : List CommandOption :=
  [.entity, .filter, .file, .page, .perPage, .orderBy]

/-- The name of an option, which follows two dashes. -/
def name : CommandOption → String
  | .debug => "debug"
  | .config => "config"
  | .backend => "backend"
  | .databaseUrl => "database-url"
  | .maxFilterBytes => "max-filter-bytes"
  | .maxFilterDepth => "max-filter-depth"
  | .maxFilterConditions => "max-filter-conditions"
  | .defaultPerPage => "default-per-page"
  | .maxPerPage => "max-per-page"
  | .entity => "entity"
  | .filter => "filter"
  | .file => "file"
  | .page => "page"
  | .perPage => "per-page"
  | .orderBy => "order-by"

/-- The letter of an option, which follows one dash. -/
def letter? : CommandOption → Option Char
  | .config => some 'c'
  | .entity => some 'e'
  | .filter => some 'f'
  | _ => none

/-- What an option takes as its value. -/
def rule : CommandOption → ValueRule
  | .debug => .flag
  | .config | .file => .path
  | .backend => .dialect
  | .databaseUrl | .entity | .filter | .orderBy => .text
  | .maxFilterBytes | .maxFilterDepth | .maxFilterConditions => .nat64
  | .defaultPerPage | .maxPerPage | .page | .perPage => .nat32

/-- Whether an option may be given several times. -/
def isRepeatable (o : CommandOption) : Bool :=
  o == .orderBy

/-- The environment variable that stands in for an option that is not given. -/
def environmentName? : CommandOption → Option String
  | .debug => some "CARDEX_DEBUG"
  | .config => some "CARDEX_CONFIG"
  | .backend => some "CARDEX_DATABASE_BACKEND"
  | .databaseUrl => some "CARDEX_DATABASE_URL"
  | .maxFilterBytes => some "CARDEX_MAX_FILTER_BYTES"
  | .maxFilterDepth => some "CARDEX_MAX_FILTER_DEPTH"
  | .maxFilterConditions => some "CARDEX_MAX_FILTER_CONDITIONS"
  | .defaultPerPage => some "CARDEX_DEFAULT_PER_PAGE"
  | .maxPerPage => some "CARDEX_MAX_PER_PAGE"
  | _ => none

end CommandOption

/-! ## Options as given -/

/-- Options with their values, in the order in which they were given. -/
abbrev GivenOptions := List (CommandOption × String)

namespace GivenOptions

/-- The value of an option. -/
def value? (given : GivenOptions) (o : CommandOption) : Option String :=
  given.lookup o

/-- The values of an option that may be given several times. -/
def values (given : GivenOptions) (o : CommandOption) : List String :=
  (given.filter fun g => g.1 == o).map Prod.snd

end GivenOptions

end FilterQuery
