import FilterQuery.Settings.Document
import FilterQuery.Settings.Path

/-!
# Loading settings

Which files are read: the profile file below the home directory, if it exists, and above it the
file that the overrides name, which must exist, or else the local file of the current directory, if
it exists.
-/

namespace FilterQuery

/-- What there is at a path. -/
inductive FileState where
  /-- Nothing, and why nothing can be there. -/
  | missing (reason : String)
  /-- Something that cannot be read as text. -/
  | unreadable (reason : String)
  /-- A text. -/
  | text (content : String)
deriving DecidableEq, Repr

/-- A file that does not exist, in directories that may. -/
def FileState.absent : FileState :=
  .missing "No such file or directory (os error 2)"

/-- The means of looking at files. -/
structure FileAccess (m : Type → Type) where
  /-- What there is at a path; a relative one belongs to the current directory. -/
  look : String → m FileState

namespace Settings

/-- The name of a file of settings. -/
def fileName : String := "cardex.json"

/-- The name of the directory below the home directory that holds the profile. -/
def profileFolder : String := ".cardex"

/-- The path of the profile file. -/
def profilePath (places : Places) : String :=
  Path.below (Path.below places.home profileFolder) fileName

/-- The layer of the file at a path. -/
def layerOf (path : String) : FileState → Except SettingsError SettingsLayer
  | .missing _ => .error (.fileNotFound path)
  | .unreadable reason => .error (.unreadable path reason)
  | .text content =>
    match SettingsDocument.read? content with
    | some layer => .ok layer
    | none => .error (.malformed path)

/-- The layer of a file that need not exist. -/
def optionalLayerOf (path : String) : FileState → Except SettingsError (Option SettingsLayer)
  | .missing _ => .ok none
  | state => (layerOf path state).map some

/-- The settings of overrides and of what there is at the paths of the profile and of the file
above it; that file must exist when the overrides name it. -/
def ofFiles (overrides : Overrides) (profilePath upperPath : String) (profile upper : FileState) :
    Except SettingsError Settings := do
  let profile ← optionalLayerOf profilePath profile
  let upper ←
    if overrides.config.isSome then (layerOf upperPath upper).map some
    else optionalLayerOf upperPath upper
  resolve overrides (.stack (profile.toList ++ upper.toList))

/-- The path of the file above the profile. -/
def upperPath (places : Places) (overrides : Overrides) : String :=
  match overrides.config with
  | some path => Path.expand places path
  | none => fileName

/-- Loads the settings. -/
def load {m : Type → Type} [Monad m] (files : FileAccess m) (places : Places)
    (overrides : Overrides) : m (Except SettingsError Settings) := do
  let profile ← files.look (profilePath places)
  let upper ← files.look (upperPath places overrides)
  pure (ofFiles overrides (profilePath places) (upperPath places overrides) profile upper)

end Settings

end FilterQuery
