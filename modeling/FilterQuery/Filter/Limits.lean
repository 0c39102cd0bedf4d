/-!
# Limits

Bounds on filters that come from outside. Exceeding one is an error and never changes what a
filter within the bounds means.
-/

namespace FilterQuery

/-- Bounds on a filter document. -/
structure FilterLimits where
  /-- The greatest length of the text, in bytes of its UTF-8 form. -/
  maxBytes : Nat
  /-- How deeply objects may be nested below the outermost one. -/
  maxDepth : Nat
  /-- The greatest number of conditions. -/
  maxConditions : Nat
deriving DecidableEq, Repr

/-- The bounds that hold unless others are set. -/
def FilterLimits.default : FilterLimits :=
  ⟨65536, 16, 200⟩

end FilterQuery
