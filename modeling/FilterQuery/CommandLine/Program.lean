import FilterQuery.CommandLine.Invocation
import FilterQuery.CommandLine.Report
import FilterQuery.Json.Printer
import FilterQuery.Schema.Catalog
import FilterQuery.Settings.Files

/-!
# The program

What a run of the program comes to: what it writes and how it ends. A run looks at files through
the means that it is given and at nothing else. It reads the file of variables in the current
directory, then the words of the command line, then the settings, and does the command on the
catalog. The first fault ends the run.
-/

namespace FilterQuery

/-- What stops a command. -/
inductive ProgramError where
  /-- The settings are at fault. -/
  | settings (error : SettingsError)
  /-- The filter or the query is at fault. -/
  | filter (error : FilterError)
  /-- The file of the filter cannot be read. -/
  | unreadableFilter (path reason : String)
  /-- There is no filter. -/
  | noFilter
  /-- The text of the filter is no JSON document. -/
  | invalidJson
  /-- There is neither an entity nor a filter. -/
  | noEntity
  /-- No database of this dialect can be searched. -/
  | noBackend (dialect : Dialect)
  /-- There is no address of a database. -/
  | noUrl
  /-- The database cannot be opened. -/
  | unopened (url : String)
deriving DecidableEq, Repr

/-- The wording of what stops a command. -/
def ProgramError.message : ProgramError → String
  | .settings error => error.details
  | .filter error => error.message
  | .unreadableFilter path reason => s!"Failed to read filter file: {path}: {reason}"
  | .noFilter => "Provide a filter with --filter or --file"
  | .invalidJson => "Filter is not valid JSON"
  | .noEntity => "--entity is required when no filter is given"
  | .noBackend dialect =>
    (DataError.unavailable dialect.name
      "search runs on sqlite only, use `compile` to render SQL for it").message
  | .noUrl => "Set a database URL with --database-url or database.url"
  | .unopened url => s!"Failed to open database: {url}"

/-- How a run ends. -/
inductive Outcome where
  /-- The run has written a text. -/
  | success (output : String)
  /-- The command has failed. -/
  | failure (error : ProgramError)
  /-- The command line is at fault. -/
  | misuse (error : UsageError)
deriving DecidableEq, Repr

namespace Outcome

/-- The number by which a run tells how it has ended. -/
def exitCode : Outcome → Nat
  | .success _ => 0
  | .failure _ => 1
  | .misuse _ => 2

/-- What the run has written. -/
def output : Outcome → String
  | .success output => output
  | .failure _ | .misuse _ => ""

/-- The outcome of a command that writes a line. -/
def ofLine : Except ProgramError String → Outcome
  | .ok line => .success (line ++ "\n")
  | .error error => .failure error

end Outcome

/-! ## Commands -/

/-- The engine for the catalog under settings. -/
def Settings.engine (s : Settings) : Engine where
  registry := Catalog.registry
  dialect := s.dialect
  limits := s.limits
  maxPerPage := s.maxPerPage
  closed := Catalog.validate_registry

namespace Engine

/-- A result of the engine as one of the program. -/
def lift {α : Type} (result : Except FilterError α) : Except ProgramError α :=
  result.mapError .filter

/-- The entity of a filter's text. -/
def detectText (e : Engine) (text : String) : Except ProgramError String :=
  match Json.parse text with
  | none => .error .invalidJson
  | some json => lift (e.registry.detect e.limits json)

/-- The entity of a search: the given one, else that of the filter. -/
def rootOf (e : Engine) : Option String → Option String → Except ProgramError String
  | some code, _ => .ok code
  | none, some text => e.detectText text
  | none, none => .error .noEntity

/-- The root entity and the query of a search. -/
def queryOf (e : Engine) (s : Settings) (arguments : SearchArguments) (text : Option String) :
    Except ProgramError (String × PageQuery) := do
  let root ← e.rootOf arguments.entity text
  let filter ← text.mapM fun text => lift (Filter.ofText e.registry e.limits (some root) text)
  let orderBy ← lift (arguments.orderBy.mapM OrderBy.ofText)
  .ok (root, {
    page := arguments.page
    perPage := arguments.perPage.getD s.defaultPerPage
    orderBy := orderBy
    filter := filter.map .filter })

/-- The members for the joins of a search, which are among the additional details. -/
def joinsReport (e : Engine) (root : String) (query : PageQuery) :
    Except FilterError (List (String × Json)) := do
  let filter ← e.filterOf root query
  let plan ← JoinPlan.ofFilter e.registry root filter
  .ok [("joins", plan.report)]

/-- The report of a search. -/
def searchReport (e : Engine) (s : Settings) (arguments : SearchArguments) (text : Option String)
    (now : Instant) : Except ProgramError Json := do
  let (root, query) ← e.queryOf s arguments text
  let request ← lift (e.prepare root query now)
  let joins ← if s.debug then lift (e.joinsReport root query) else .ok []
  .ok (.object (request.report ++ joins))

end Engine

/-! ## Runs -/

/-- What a run finds when it starts. -/
structure Surroundings where
  /-- The directories that paths are relative to. -/
  places : Places
  /-- The environment variables. -/
  environment : Environment
  /-- The present time. -/
  now : Instant

namespace Program

/-- The name and the version of the program. -/
def version : String :=
  "cardex 0.1.0"

/-- How the program is used. -/
def help : String :=
  "Filter compiler for the card catalog\n\n" ++
    "Usage: cardex [OPTIONS] [entities | compile | detect | search]"

/-- The name of the file of variables. -/
def variablesFile : String :=
  ".env"

variable {m : Type → Type} [Monad m]

/-- Reads the text of a filter. -/
def readFilter (files : FileAccess m) (places : Places) :
    FilterSource → m (Except ProgramError (Option String))
  | .nowhere => pure (.ok none)
  | .text text => pure (.ok (some text))
  | .file path => do
    let path := Path.expand places path
    match ← files.look path with
    | .text text => pure (.ok (some text))
    | .missing reason | .unreadable reason => pure (.error (.unreadableFilter path reason))

/-- Detects the entity of a filter. -/
def detect (files : FileAccess m) (here : Surroundings) (s : Settings) (source : FilterSource) :
    m (Except ProgramError String) := do
  match ← readFilter files here.places source with
  | .error error => pure (.error error)
  | .ok none => pure (.error .noFilter)
  | .ok (some text) => pure (s.engine.detectText text)

/-- Compiles a search. -/
def compile (files : FileAccess m) (here : Surroundings) (s : Settings)
    (arguments : SearchArguments) : m (Except ProgramError String) := do
  match ← readFilter files here.places arguments.source with
  | .error error => pure (.error error)
  | .ok text =>
    pure ((s.engine.searchReport s arguments text here.now).map Json.pretty)

/-- Prepares a search for the database of the settings. No database can be opened from here, so
this ends with an error at the latest when the query is complete. -/
def search (files : FileAccess m) (here : Surroundings) (s : Settings)
    (arguments : SearchArguments) : m (Except ProgramError String) := do
  match s.dialect, s.url with
  | .postgres, _ => pure (.error (.noBackend .postgres))
  | .sqlite, none => pure (.error .noUrl)
  | .sqlite, some url =>
    match ← readFilter files here.places arguments.source with
    | .error error => pure (.error error)
    | .ok text =>
      pure (do
        let _ ← s.engine.queryOf s arguments text
        .error (.unopened url))

/-- Does a command under settings. -/
def perform (files : FileAccess m) (here : Surroundings) (s : Settings) :
    Command → m (Except ProgramError String)
  | .entities => pure (.ok s.engine.registry.report.pretty)
  | .detect source => detect files here s source
  | .compile arguments => compile files here s arguments
  | .search arguments => search files here s arguments

/-- The environment with the variables of the file in the current directory. -/
def environmentOf (e : Environment) : FileState → Environment
  | .text content => e.addFile content
  | .missing _ | .unreadable _ => e

/-- Runs the program with the words of the command line. -/
def run (files : FileAccess m) (here : Surroundings) (words : List String) : m Outcome := do
  let file ← files.look variablesFile
  match Invocation.ofWords (environmentOf here.environment file) words with
  | .error error => pure (.misuse error)
  | .ok .help => pure (.success (help ++ "\n"))
  | .ok .version => pure (.success (version ++ "\n"))
  | .ok (.run overrides command) =>
    match ← Settings.load files here.places overrides with
    | .error error => pure (.failure (.settings error))
    | .ok settings => do
      let result ← perform files here settings command
      pure (.ofLine result)

end Program

end FilterQuery
