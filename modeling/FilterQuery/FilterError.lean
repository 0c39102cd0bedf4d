/-!
# Errors of filters

Everything that can be wrong with a filter, a search or the declaration of an entity. Each error
is a cause; `FilterError.message` words it, `FilterError.code` names its class for machines, and
`FilterError.isClientError` tells the faults of a request from those of the program that uses the
library.
-/

namespace FilterQuery

/-- What is wrong with the operand of a logical word. -/
inductive LogicalFault where
  /-- A list of filters was expected. -/
  | notAList
  /-- A list held something that is not an object. -/
  | itemNotAnObject
  /-- A filter object was expected. -/
  | notAnObject
deriving DecidableEq, Repr

/-- What is wrong with the form of a filter document. -/
inductive DocumentFault where
  /-- The text is not a JSON document. -/
  | notJson
  /-- A filter is a value other than an object, given as its text. -/
  | notAnObject (found : String)
  /-- The value of a field is not a non-empty object. -/
  | fieldNotAMap (field : String)
  /-- The value of a relation is not an object. -/
  | relationNotAnObject (relation : String)
  /-- A relation has collection keywords beside other keys. -/
  | mixedKeywords (relation : String)
  /-- The value of a quantifier is not an object. -/
  | quantifierNotAnObject (relation keyword : String)
  /-- An entity was to be detected where none is registered. -/
  | noEntities
deriving DecidableEq, Repr

/-- Which limit a filter exceeds. -/
inductive Excess where
  /-- Its text is too long. -/
  | bytes (size limit : Nat)
  /-- Its objects are nested too deeply. -/
  | depth (limit : Nat)
  /-- It has too many conditions. -/
  | conditions (limit : Nat)
deriving DecidableEq, Repr

/-- Why a filter could not be turned into a condition. -/
inductive ResolutionFault where
  /-- A filter of one entity stands where one of another is needed. -/
  | wrongEntity (found expected : String)
  /-- No join is planned for a path. -/
  | unplanned (path : String)
  /-- A collection condition stands on a single-valued relation. -/
  | notACollection (path : String)
  /-- A size does not fit 64 bits with sign. -/
  | sizeOutOfRange (size : Nat) (path : String)
  /-- The entity of a field does not exist. -/
  | unknownEntity (entity : String)
  /-- The field does not exist. -/
  | unknownField (entity field : String)
  /-- The kind of the field does not have the operator. -/
  | unsupported (operator field kind : String)
  /-- The operand does not suit the operator or the kind of the field. -/
  | badOperand (field operator : String)
  /-- A date window leaves the supported range. -/
  | windowOutOfRange (operator : String)
  /-- A date window was asked of an operator that has none. -/
  | notRelative (operator : String)
  /-- A raw condition has another number of markers than of parameters. -/
  | markerCount (markers parameters : Nat)
deriving DecidableEq, Repr

/-- What is wrong with the paging or the order of a query. -/
inductive PageFault where
  /-- The page is zero. -/
  | page
  /-- The number of rows per page lies outside one and a maximum. -/
  | perPage (maximum : Nat)
  /-- Both of these. -/
  | pageAndPerPage (maximum : Nat)
  /-- A text is no ordering. -/
  | order (text : String)
deriving DecidableEq, Repr

/-- What is wrong with the declaration of an entity. -/
inductive MetadataFault where
  /-- A name is declared again. -/
  | repeatedName (name : String)
  /-- There is no primary key. -/
  | emptyPrimaryKey
  /-- A relation leads to an entity that is not registered. -/
  | unknownTarget (relation target : String)
  /-- A relation joins no columns. -/
  | noJoinColumns (relation : String)
  /-- A relation joins a column that its entity does not declare. -/
  | undeclaredColumn (relation column : String)
  /-- A relation joins a column that its target does not declare. -/
  | undeclaredTargetColumn (relation column target : String)
deriving DecidableEq, Repr

/-- An error of the library. -/
inductive FilterError where
  /-- The entity is not registered. -/
  | unknownEntity (entity : String)
  /-- The entity has no such field. -/
  | unknownField (entity field : String)
  /-- The entity has no such relation. -/
  | unknownRelation (entity relation : String)
  /-- The field or relation does not have the operator. -/
  | unsupportedOperator (field operator kind : String)
  /-- The value does not suit the field and the operator. -/
  | valueMismatch (field operator expected : String)
  /-- The operand of a logical word is malformed. -/
  | malformedLogical (word : String) (fault : LogicalFault)
  /-- The document is malformed. -/
  | malformedFilter (fault : DocumentFault)
  /-- Several entities explain every key. -/
  | ambiguousEntity (candidates : List String)
  /-- The filter does not fit the registry or the join plan. -/
  | unresolved (fault : ResolutionFault)
  /-- The filter exceeds a limit. -/
  | tooComplex (excess : Excess)
  /-- The paging or the order is invalid. -/
  | invalidPagination (fault : PageFault)
  /-- The entity is registered already. -/
  | duplicateEntity (entity : String)
  /-- The declaration of the entity is invalid. -/
  | invalidMetadata (entity : String) (fault : MetadataFault)
deriving DecidableEq, Repr

/-! ## Wording -/

/-- The wording of a fault of a logical word. -/
def LogicalFault.message : LogicalFault → String
  | .notAList => "expected a list of filters"
  | .itemNotAnObject => "every item must be a filter object"
  | .notAnObject => "expected a filter object"

/-- The wording of a fault of a document. -/
def DocumentFault.message : DocumentFault → String
  | .notJson => "invalid JSON"
  | .notAnObject found => s!"expected a filter object, got {found}"
  | .fieldNotAMap field => s!"'{field}' expects a map of operator to value"
  | .relationNotAnObject relation => s!"relation '{relation}' expects a filter object"
  | .mixedKeywords relation =>
    s!"relation '{relation}' mixes collection keywords with field filters"
  | .quantifierNotAnObject relation keyword =>
    s!"'{relation}.{keyword}' expects a filter object"
  | .noEntities => "no entities are registered"

/-- The wording of an exceeded limit. -/
def Excess.message : Excess → String
  | .bytes size limit => s!"filter is {size} bytes, limit is {limit}"
  | .depth limit => s!"nesting deeper than {limit} levels"
  | .conditions limit => s!"more than {limit} conditions"

/-- The wording of a fault of resolution. -/
def ResolutionFault.message : ResolutionFault → String
  | .wrongEntity found expected => s!"filter for '{found}' used where '{expected}' is expected"
  | .unplanned path => s!"no join alias planned for '{path}'"
  | .notACollection path => s!"'{path}' is not a collection relation"
  | .sizeOutOfRange size path => s!"size {size} on '{path}' is out of range"
  | .unknownEntity entity => s!"Unknown entity: {entity}"
  | .unknownField entity field => s!"Unknown field '{field}' on entity '{entity}'"
  | .unsupported operator field kind =>
    s!"operator '{operator}' is not supported for '{field}' ({kind})"
  | .badOperand field operator => s!"invalid operand for '{field}' with operator '{operator}'"
  | .windowOutOfRange operator => s!"'{operator}' range is out of bounds"
  | .notRelative operator => s!"'{operator}' is not a relative date operator"
  | .markerCount markers parameters =>
    s!"raw condition has {markers} placeholders but {parameters} parameters"

/-- The wording of a page number out of range. -/
def PageFault.pageMessage : String :=
  "Page must be >= 1"

/-- The wording of a page size out of range. -/
def PageFault.perPageMessage (maximum : Nat) : String :=
  s!"Per page must be between 1 and {maximum}"

/-- The wording of a fault of paging. -/
def PageFault.message : PageFault → String
  | .page => pageMessage
  | .perPage maximum => perPageMessage maximum
  | .pageAndPerPage maximum => pageMessage ++ "; " ++ perPageMessage maximum
  | .order text =>
    s!"Invalid order_by '{text}'. Use 'field' or 'field:asc' or 'field:desc'"

/-- The wording of a fault of a declaration. -/
def MetadataFault.message : MetadataFault → String
  | .repeatedName name => s!"'{name}' is declared more than once"
  | .emptyPrimaryKey => "primary key is empty"
  | .unknownTarget relation target =>
    s!"relation '{relation}' targets unknown entity '{target}'"
  | .noJoinColumns relation => s!"relation '{relation}' has no join columns"
  | .undeclaredColumn relation column =>
    s!"relation '{relation}' uses undeclared column '{column}'"
  | .undeclaredTargetColumn relation column target =>
    s!"relation '{relation}' uses undeclared column '{column}' on '{target}'"

namespace FilterError

/-- The wording of an error. -/
def message : FilterError → String
  | .unknownEntity entity => s!"Unknown entity: {entity}"
  | .unknownField entity field => s!"Unknown field '{field}' on entity '{entity}'"
  | .unknownRelation entity relation => s!"Unknown relation '{relation}' on entity '{entity}'"
  | .unsupportedOperator field operator kind =>
    s!"Operator '{operator}' is not supported for '{field}' ({kind})"
  | .valueMismatch field operator expected =>
    s!"Invalid value for '{field}' with operator '{operator}': expected {expected}"
  | .malformedLogical word fault => s!"Malformed '{word}' operator: " ++ fault.message
  | .malformedFilter fault => "Malformed filter: " ++ fault.message
  | .ambiguousEntity candidates =>
    "Ambiguous entity detection, candidates: " ++ ", ".intercalate candidates
  | .unresolved fault => "Condition resolution failed: " ++ fault.message
  | .tooComplex excess => "Filter too complex: " ++ excess.message
  | .invalidPagination fault => "Invalid pagination: " ++ fault.message
  | .duplicateEntity entity => s!"Entity '{entity}' is already registered"
  | .invalidMetadata entity fault => s!"Invalid metadata for '{entity}': " ++ fault.message

/-- The class of an error, for machines. -/
def code : FilterError → String
  | .unknownEntity _ => "UNKNOWN_ENTITY"
  | .unknownField _ _ => "UNKNOWN_FIELD"
  | .unknownRelation _ _ => "UNKNOWN_RELATION"
  | .unsupportedOperator _ _ _ => "UNSUPPORTED_OPERATOR"
  | .valueMismatch _ _ _ => "VALUE_KIND_MISMATCH"
  | .malformedLogical _ _ => "MALFORMED_LOGICAL_OPERATOR"
  | .malformedFilter _ => "MALFORMED_FILTER"
  | .ambiguousEntity _ => "AMBIGUOUS_ENTITY_DETECTION"
  | .unresolved _ => "CONDITION_RESOLUTION_ERROR"
  | .tooComplex _ => "FILTER_TOO_COMPLEX"
  | .invalidPagination _ => "INVALID_PAGINATION"
  | .duplicateEntity _ => "DUPLICATE_ENTITY"
  | .invalidMetadata _ _ => "INVALID_METADATA"

/-- Whether the request is at fault, and not the registry or the program around the library. -/
def isClientError : FilterError → Bool
  | .unknownEntity _ => false
  | .unresolved _ => false
  | .duplicateEntity _ => false
  | .invalidMetadata _ _ => false
  | _ => true

end FilterError

end FilterQuery
