import FilterQuery.Settings.Layer
import FilterQuery.Json.Reader

/-!
# Files of settings

A file of settings is a JSON object with the sections `database`, `filters` and `pagination` and
the member `debug`; each of them may be missing or null. A section is an object, or an array of all
its members in order. Members that nobody knows are allowed everywhere. A member that is known must
have the right type and must not occur twice.
-/

namespace FilterQuery.SettingsDocument

/-! ## Single settings -/

/-- Reads a value that may be null. -/
def nullable {α : Type} (read : Json → Option α) : Json → Option (Option α)
  | .null => some none
  | json => (read json).map some

/-- Reads a dialect: its name, or an object whose only member has that name and the value null. -/
def dialect? : Json → Option Dialect
  | .text s => ofName s
  | .object [(s, .null)] => ofName s
  | _ => none
where
  /-- The dialect with a name. -/
  ofName (s : String) : Option Dialect :=
    if s = "sqlite" then some .sqlite else if s = "postgres" then some .postgres else none

/-- Reads a text. -/
def text? : Json → Option String
  | .text s => some s
  | _ => none

/-- Reads a truth value. -/
def bool? : Json → Option Bool
  | .bool b => some b
  | _ => none

/-- Reads a natural number of 64 bits. -/
def nat64? : Json → Option Nat
  | .integer n => if 0 ≤ n && n ≤ maxNat64 then some n.toNat else none
  | _ => none

/-! ## Sections -/

/-- The texts of a section's members in the order of their names, each of which may be missing. -/
abbrev Parts := List (Option (List Char))

/-- The text of the only member with a name; nothing when it occurs twice. -/
def single? (members : List (String × List Char)) (name : String) :
    Option (Option (List Char)) :=
  match members.filter fun m => m.1 == name with
  | [] => some none
  | [m] => some (some m.2)
  | _ => none

/-- The texts of the members of a section. -/
def parts? (names : List String) (s : List Char) : Option Parts :=
  match s with
  | '[' :: _ => do
    let items ← Json.itemsOf s
    if items.length = names.length then some (items.map some) else none
  | _ => do
    let members ← Json.membersOf s
    names.mapM (single? members)

/-- Reads a part of a section, which may be missing or null. -/
def part? {α : Type} (read : Json → Option α) : Option (List Char) → Option (Option α)
  | none => some none
  | some s => (Json.parseChars s).bind (nullable read)

/-- Whether a text is the literal null. -/
def isNull (s : List Char) : Bool :=
  match Json.parseChars s with
  | some .null => true
  | _ => false

/-- Reads a section, which may be missing or null, with the reader of its parts. -/
def section? {α : Type} (names : List String) (read : Parts → Option α) :
    Option (List Char) → Option (Option α)
  | none => some none
  | some s => if isNull s then some none else ((parts? names s).bind read).map some

/-- Reads the parts of the section `database`. -/
def database? : Parts → Option DatabaseSection
  | [dialect, url] => do
    let dialect ← part? dialect? dialect
    let url ← part? text? url
    some ⟨dialect, url⟩
  | _ => none

/-- Reads the parts of the section `filters`. -/
def filters? : Parts → Option FilterSection
  | [bytes, depth, conditions] => do
    let bytes ← part? nat64? bytes
    let depth ← part? nat64? depth
    let conditions ← part? nat64? conditions
    some ⟨bytes, depth, conditions⟩
  | _ => none

/-- Reads the parts of the section `pagination`. -/
def pages? : Parts → Option PageSection
  | [usual, greatest] => do
    let usual ← part? PageQuery.nat32OfJson? usual
    let greatest ← part? PageQuery.nat32OfJson? greatest
    some ⟨usual, greatest⟩
  | _ => none

/-! ## Documents -/

/-- The members of a document that are known. -/
def knownNames : List String :=
  ["database", "filters", "pagination", "debug"]

/-- Whether the members that are not known are well formed. Unlike those of a section they are read
in full, inside the document's one level of nesting. -/
def othersReadable (members : List (String × List Char)) : Bool :=
  members.all fun m =>
    knownNames.contains m.1 || (Json.parseInside 1 m.2).isSome

/-- Reads a document of settings. -/
def read? (content : String) : Option SettingsLayer := do
  let members ← Json.membersOf content.toList
  let database ← single? members "database"
  let filters ← single? members "filters"
  let pages ← single? members "pagination"
  let debug ← single? members "debug"
  if !othersReadable members then none
  else
    let database ← section? ["backend", "url"] database? database
    let filters ← section? ["max_filter_bytes", "max_depth", "max_conditions"] filters? filters
    let pages ← section? ["default_per_page", "max_per_page"] pages? pages
    let debug ← part? bool? debug
    some ⟨database, filters, pages, debug⟩

end FilterQuery.SettingsDocument
