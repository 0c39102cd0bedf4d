import FilterQuery.Filter.Document

/-!
# Detecting the entity of a document

A filter document need not say which entity it filters. Its keys, looked for through logical words
but not inside fields and relations, are compared with the members of every entity: the entity
that has all of them is meant, when it is the only one. `Filter.ofJson` reads a document for a
given or a detected entity, and `Filter.ofText` does so from text.
-/

namespace FilterQuery

namespace Detection

/-! ## Keys of a document -/

/-- Gathers the keys of a part of a document onto those gathered before. -/
abbrev Gatherer := Json → List String → Except FilterError (List String)

/-- Keys with a further one, unless it is among them. -/
def addKey (keys : List String) (key : String) : List String :=
  if keys.contains key then keys else keys ++ [key]

/-- Gathers the keys of the items of a logical word. -/
def gatherItems (gather : Gatherer) (word : String) :
    List Json → List String → Except FilterError (List String)
  | [], keys => .ok keys
  | j :: js, keys =>
    if !j.isObject then .error (.malformedLogical word .itemNotAnObject)
    else do
      let keys ← gather j keys
      gatherItems gather word js keys

/-- Gathers the keys of one member of an object. -/
def gatherMember (gather : Gatherer) (key : String) (json : Json) (keys : List String) :
    Except FilterError (List String) :=
  if key = andWord || key = orWord then
    match json with
    | .array items => gatherItems gather key items keys
    | _ => .error (.malformedLogical key .notAList)
  else if key = notWord then
    if json.isObject then gather json keys else .error (.malformedLogical notWord .notAnObject)
  else .ok (addKey keys key)

/-- Gathers the keys of the members of an object. -/
def gatherMembers (gather : Gatherer) :
    List (String × Json) → List String → Except FilterError (List String)
  | [], keys => .ok keys
  | (key, j) :: ms, keys => do
    let keys ← gatherMember gather key j keys
    gatherMembers gather ms keys

/-- Gathers the keys of a filter, with one level of nesting less than given left inside it. -/
def gatherKeys (limits : FilterLimits) : Nat → Gatherer
  | 0, _, _ => .error (.tooComplex (.depth limits.maxDepth))
  | levels + 1, json, keys =>
    match json with
    | .object members => gatherMembers (gatherKeys limits levels) members keys
    | json => .error (.malformedFilter (.notAnObject json.compact))

/-- The keys of a filter that are no logical words, each once, in the order of the document. -/
def keysOf (limits : FilterLimits) (json : Json) : Except FilterError (List String) :=
  gatherKeys limits (FilterDocument.levelsOf limits) json []

/-! ## Entities that explain the keys -/

/-- How many keys are members of an entity. -/
def score (keys : List String) (e : Entity) : Nat :=
  keys.countP e.hasMember

/-- The first entity with the greatest score. -/
def best (keys : List String) : List Entity → Option Entity
  | [] => none
  | e :: es =>
    match best keys es with
    | none => some e
    | some other => if score keys e < score keys other then some other else some e

/-- The entities that have every key, by their codes. -/
def candidates (keys : List String) (entities : List Entity) : List String :=
  (entities.filter fun e => keys.all e.hasMember).map Entity.code

/-- The one entity that has every key. Where there is none, the error names the entity that has
the most keys and the first key that it lacks. -/
def choose (keys : List String) (entities : List Entity) : Except FilterError String :=
  match candidates keys entities with
  | [code] => .ok code
  | [] =>
    match best keys entities with
    | none => .error (.malformedFilter .noEntities)
    | some e =>
      .error (.unknownField e.code ((keys.find? fun k => !e.hasMember k).getD ""))
  | codes => .error (.ambiguousEntity codes)

end Detection

/-- The entity that a document filters, found by its keys. -/
def Registry.detect (registry : Registry) (limits : FilterLimits) (json : Json) :
    Except FilterError String := do
  let keys ← Detection.keysOf limits json
  Detection.choose keys registry.toList

namespace Filter

/-- Reads a document as a filter of the entity with a code, or of the detected entity. -/
def ofJson (registry : Registry) (limits : FilterLimits) (code : Option String) (json : Json) :
    Except FilterError Filter := do
  let code ← match code with
    | some code => .ok code
    | none => registry.detect limits json
  let target ← registry.lookup code
  FilterDocument.read registry limits target json

/-- Reads a text as a filter, the length of the text being checked first. -/
def ofText (registry : Registry) (limits : FilterLimits) (code : Option String) (text : String) :
    Except FilterError Filter :=
  if limits.maxBytes < text.utf8ByteSize then
    .error (.tooComplex (.bytes text.utf8ByteSize limits.maxBytes))
  else
    match Json.parse text with
    | none => .error (.malformedFilter .notJson)
    | some json => ofJson registry limits code json

end Filter

end FilterQuery
