import FilterQuery.Filter.Limits
import FilterQuery.Statement.Dialect
import FilterQuery.Search.Query

/-!
# Layers of settings

Settings come in layers: the command line, a chosen or local file, the file of the user's profile,
and default values. A layer sets some of the settings, most of them within sections, which may be
missing as a whole. Each setting has the value of the highest layer that sets it, whatever the
layers do with the others.
-/

namespace FilterQuery

/-! ## Sections -/

/-- What a layer sets about the database. -/
structure DatabaseSection where
  /-- The dialect of statements. -/
  dialect : Option Dialect
  /-- The address of the database. -/
  url : Option String
deriving DecidableEq, Repr

namespace DatabaseSection

/-- The section that sets nothing. -/
def empty : DatabaseSection :=
  ⟨none, none⟩

/-- Two sections as one, of which the upper one takes precedence. -/
def above (upper lower : DatabaseSection) : DatabaseSection where
  dialect := upper.dialect.or lower.dialect
  url := upper.url.or lower.url

end DatabaseSection

/-- What a layer sets about the bounds on filters. -/
structure FilterSection where
  /-- The greatest length of a filter's text. -/
  maxBytes : Option Nat
  /-- How deeply the objects of a filter may be nested. -/
  maxDepth : Option Nat
  /-- The greatest number of conditions of a filter. -/
  maxConditions : Option Nat
deriving DecidableEq, Repr

namespace FilterSection

/-- The section that sets nothing. -/
def empty : FilterSection :=
  ⟨none, none, none⟩

/-- Two sections as one, of which the upper one takes precedence. -/
def above (upper lower : FilterSection) : FilterSection where
  maxBytes := upper.maxBytes.or lower.maxBytes
  maxDepth := upper.maxDepth.or lower.maxDepth
  maxConditions := upper.maxConditions.or lower.maxConditions

end FilterSection

/-- What a layer sets about pages. -/
structure PageSection where
  /-- The number of rows of a page unless a query gives it. -/
  defaultPerPage : Option Nat
  /-- The greatest number of rows of a page. -/
  maxPerPage : Option Nat
deriving DecidableEq, Repr

namespace PageSection

/-- The section that sets nothing. -/
def empty : PageSection :=
  ⟨none, none⟩

/-- Two sections as one, of which the upper one takes precedence. -/
def above (upper lower : PageSection) : PageSection where
  defaultPerPage := upper.defaultPerPage.or lower.defaultPerPage
  maxPerPage := upper.maxPerPage.or lower.maxPerPage

end PageSection

/-- A section of an upper layer and that of a lower one as one. A section that the upper layer does
not have leaves the lower one as it is; one that the lower layer does not have sets nothing. -/
def mergeSections {α : Type} (empty : α) (above : α → α → α) : Option α → Option α → Option α
  | none, lower => lower
  | some upper, lower => some (above upper (lower.getD empty))

/-! ## Layers -/

/-- A layer: the settings that one source sets. -/
structure SettingsLayer where
  /-- The section about the database. -/
  database : Option DatabaseSection
  /-- The section about the bounds on filters. -/
  filters : Option FilterSection
  /-- The section about pages. -/
  pages : Option PageSection
  /-- Whether additional details are written. -/
  debug : Option Bool
deriving DecidableEq, Repr

namespace SettingsLayer

/-- The layer that sets nothing. -/
def empty : SettingsLayer :=
  ⟨none, none, none, none⟩

/-- Two layers as one, of which the upper one takes precedence. -/
def above (upper lower : SettingsLayer) : SettingsLayer where
  database := mergeSections .empty .above upper.database lower.database
  filters := mergeSections .empty .above upper.filters lower.filters
  pages := mergeSections .empty .above upper.pages lower.pages
  debug := upper.debug.or lower.debug

/-- Several layers as one; each takes precedence over those before it. -/
def stack (layers : List SettingsLayer) : SettingsLayer :=
  layers.foldl (fun lower upper => upper.above lower) empty

end SettingsLayer

/-- What the command line and the environment set. -/
structure Overrides where
  /-- Whether additional details are asked for. -/
  debug : Bool
  /-- The path of a settings file. -/
  config : Option String
  /-- The dialect of statements. -/
  dialect : Option Dialect
  /-- The address of the database. -/
  url : Option String
  /-- The greatest length of a filter's text. -/
  maxBytes : Option Nat
  /-- How deeply the objects of a filter may be nested. -/
  maxDepth : Option Nat
  /-- The greatest number of conditions of a filter. -/
  maxConditions : Option Nat
  /-- The number of rows of a page unless a query gives it. -/
  defaultPerPage : Option Nat
  /-- The greatest number of rows of a page. -/
  maxPerPage : Option Nat
deriving DecidableEq, Repr

/-- Overrides that set nothing. -/
def Overrides.none : Overrides :=
  ⟨false, .none, .none, .none, .none, .none, .none, .none, .none⟩

/-- The settings in force. -/
structure Settings where
  /-- The dialect of statements. -/
  dialect : Dialect
  /-- The address of the database. -/
  url : Option String
  /-- The bounds on filters. -/
  limits : FilterLimits
  /-- The number of rows of a page unless a query gives it. -/
  defaultPerPage : Nat
  /-- The greatest number of rows of a page. -/
  maxPerPage : Nat
  /-- Whether additional details are written. -/
  debug : Bool
deriving DecidableEq, Repr

/-- What is wrong with settings. -/
inductive SettingsError where
  /-- The chosen file does not exist. -/
  | fileNotFound (path : String)
  /-- A file cannot be read. -/
  | unreadable (path reason : String)
  /-- A file is no document of settings. -/
  | malformed (path : String)
  /-- A bound on filters is zero. -/
  | zeroLimit
  /-- The greatest number of rows of a page is zero or too great. -/
  | maxPerPage
  /-- The usual number of rows of a page is zero or greater than the greatest. -/
  | defaultPerPage (maximum : Nat)
deriving DecidableEq, Repr

/-- The wording of an error, without its cause. -/
def SettingsError.message : SettingsError → String
  | .fileNotFound path => s!"Config file not found: {path}"
  | .unreadable path _ => s!"Failed to read config file: {path}"
  | .malformed path => s!"Failed to parse config file: {path}"
  | .zeroLimit => "Filter limits must be greater than zero"
  | .maxPerPage => s!"pagination.max_per_page must be between 1 and {FilterQuery.maxPerPage}"
  | .defaultPerPage maximum =>
    s!"pagination.default_per_page must be between 1 and max_per_page ({maximum})"

/-- The wording of an error with its cause, where the cause is known. -/
def SettingsError.details : SettingsError → String
  | .unreadable path reason => s!"Failed to read config file: {path}: {reason}"
  | error => error.message

namespace Settings

/-- The settings that overrides and a layer of files make, with the default values below them. -/
def ofLayers (overrides : Overrides) (files : SettingsLayer) : Settings :=
  let database := files.database.getD .empty
  let filters := files.filters.getD .empty
  let pages := files.pages.getD .empty
  { dialect := (overrides.dialect.or database.dialect).getD .sqlite
    url := overrides.url.or database.url
    limits :=
      { maxBytes := (overrides.maxBytes.or filters.maxBytes).getD FilterLimits.default.maxBytes
        maxDepth := (overrides.maxDepth.or filters.maxDepth).getD FilterLimits.default.maxDepth
        maxConditions :=
          (overrides.maxConditions.or filters.maxConditions).getD
            FilterLimits.default.maxConditions }
    defaultPerPage :=
      (overrides.defaultPerPage.or pages.defaultPerPage).getD FilterQuery.defaultPerPage
    maxPerPage := (overrides.maxPerPage.or pages.maxPerPage).getD FilterQuery.maxPerPage
    debug := overrides.debug || files.debug.getD false }

/-- Checks that no bound on filters is zero and that the page sizes fit each other. -/
def check (s : Settings) : Except SettingsError Unit :=
  if s.limits.maxBytes = 0 || s.limits.maxDepth = 0 || s.limits.maxConditions = 0 then
    .error .zeroLimit
  else if s.maxPerPage = 0 || FilterQuery.maxPerPage < s.maxPerPage then .error .maxPerPage
  else if s.defaultPerPage = 0 || s.maxPerPage < s.defaultPerPage then
    .error (.defaultPerPage s.maxPerPage)
  else .ok ()

/-- The settings of overrides and a layer of files, checked. -/
def resolve (overrides : Overrides) (files : SettingsLayer) : Except SettingsError Settings := do
  let settings := ofLayers overrides files
  settings.check
  .ok settings

end Settings

end FilterQuery
