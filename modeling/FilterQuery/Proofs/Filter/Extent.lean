import FilterQuery.Filter.Document

/-!
# The extent of a document

What a filter document asks of the limits, read off the document and the registry without reading a
filter. An item of `and` or `or`, the operand of `not`, a filter in a relation and the operand of
`any`, `all` or `none` lie one level below what they stand in; an operator of a field and a keyword
of a collection are one condition each. Parts that can be no filter have no extent.
-/

namespace FilterQuery

/-- How far a part of a document goes. -/
@[ext]
structure Extent where
  /-- The levels below the object that the part belongs to. -/
  levels : Nat
  /-- The number of conditions. -/
  conditions : Nat
deriving DecidableEq, Repr

namespace Extent

/-- The extent of a part without conditions and without levels. -/
def empty : Extent :=
  ⟨0, 0⟩

/-- The extent of two parts that stand beside each other. -/
def beside (a b : Extent) : Extent :=
  ⟨max a.levels b.levels, a.conditions + b.conditions⟩

@[simp] theorem empty_beside (a : Extent) : empty.beside a = a := by
  simp [empty, beside]

@[simp] theorem beside_empty (a : Extent) : a.beside empty = a := by
  simp [empty, beside]

/-- The extent of a part, one level up. -/
def deeper (a : Extent) : Extent :=
  ⟨a.levels + 1, a.conditions⟩

/-- The extent of a part and one condition. -/
def counted (a : Extent) : Extent :=
  ⟨a.levels, a.conditions + 1⟩

/-- Whether there is room for a part after some conditions. -/
def Within (a : Extent) (limits : FilterLimits) (levels count : Nat) : Prop :=
  a.levels ≤ levels ∧ count + a.conditions ≤ limits.maxConditions

instance (a : Extent) (limits : FilterLimits) (levels count : Nat) :
    Decidable (a.Within limits levels count) :=
  inferInstanceAs (Decidable (_ ∧ _))

end Extent

namespace Json

mutual

/-- The extent of a filter of an entity. -/
def extent (registry : Registry) (entity : Entity) : Json → Extent
  | .object members => extentOfMembers registry entity members
  | _ => .empty

/-- The extent of the items of a logical word. -/
def extentOfItems (registry : Registry) (entity : Entity) : List Json → Extent
  | [] => .empty
  | j :: js => (j.extent registry entity).deeper.beside (extentOfItems registry entity js)

/-- The extent of a member of a filter of an entity. -/
def extentOfMember (registry : Registry) (entity : Entity) (key : String) : Json → Extent
  | .array items =>
    if key = andWord ∨ key = orWord then extentOfItems registry entity items else .empty
  | .object members =>
    if key = andWord ∨ key = orWord then .empty
    else if key = notWord then (extentOfMembers registry entity members).deeper
    else if (entity.field? key).isSome then ⟨0, members.length⟩
    else
      match (entity.relation? key).bind fun relation => registry.find? relation.target with
      | none => .empty
      | some target =>
        if members.any fun m => isCollectionKeyword m.1 then
          extentOfKeywords registry target members
        else (extentOfMembers registry target members).deeper
  | _ => .empty

/-- The extent of the members of a filter of an entity. -/
def extentOfMembers (registry : Registry) (entity : Entity) : List (String × Json) → Extent
  | [] => .empty
  | (key, j) :: ms =>
    (j.extentOfMember registry entity key).beside (extentOfMembers registry entity ms)

/-- The extent of the keywords of a collection of rows of a target. -/
def extentOfKeywords (registry : Registry) (target : Entity) : List (String × Json) → Extent
  | [] => .empty
  | (key, j) :: ms =>
    match CollectionKeyword.ofName? key with
    | none => extentOfKeywords registry target ms
    | some (.quantifier _) =>
      (j.extent registry target).deeper.beside (extentOfKeywords registry target ms).counted
    | some _ => (extentOfKeywords registry target ms).counted

end

end Json

end FilterQuery
