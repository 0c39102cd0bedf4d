import FilterQuery.JoinPlan.Planning

/-!
# Paths and aliases

A path is the names of a chain of relations with points between them, and aliases are numbered.
As long as no relation has a point in its name, a path determines the relation at its end and the
path before it (`childPath_inj`); different numbers always make different aliases
(`numberedAlias_inj`).
-/

namespace FilterQuery.JoinPlan

/-! ## Paths -/

/-- The last point of a text separates it in one way only. -/
theorem append_point_inj {u v u' v' : List Char} (hv : '.' ∉ v) (hv' : '.' ∉ v')
    (h : u ++ '.' :: v = u' ++ '.' :: v') : u = u' ∧ v = v' := by
  rcases List.append_eq_append_iff.1 h with ⟨a, hu, ha⟩ | ⟨a, hu, ha⟩
  · cases a with
    | nil => exact ⟨by simpa using hu.symm, by simpa using ha⟩
    | cons c a =>
      obtain ⟨-, hmem⟩ := List.cons.inj ha
      exact absurd (by rw [hmem]; simp) hv
  · cases a with
    | nil => exact ⟨by simpa using hu, by simpa using ha.symm⟩
    | cons c a =>
      obtain ⟨-, hmem⟩ := List.cons.inj ha
      exact absurd (by rw [hmem]; simp) hv'

theorem toList_childPath_some (path name : String) :
    (childPath (some path) name).toList = path.toList ++ '.' :: name.toList := by
  simp [childPath]

/-- A path below another determines both the path above and the relation. -/
theorem childPath_inj {p q : Option String} {a b : String} (ha : '.' ∉ a.toList)
    (hb : '.' ∉ b.toList) (h : childPath p a = childPath q b) : p = q ∧ a = b := by
  cases p with
  | none =>
    cases q with
    | none => exact ⟨rfl, h⟩
    | some q =>
      have hlist : a.toList = q.toList ++ '.' :: b.toList := by
        rw [← toList_childPath_some, ← h, childPath]
      exact absurd (by rw [hlist]; simp) ha
  | some p =>
    cases q with
    | none =>
      have hlist : b.toList = p.toList ++ '.' :: a.toList := by
        rw [← toList_childPath_some, h, childPath]
      exact absurd (by rw [hlist]; simp) hb
    | some q =>
      have hlist : p.toList ++ '.' :: a.toList = q.toList ++ '.' :: b.toList := by
        rw [← toList_childPath_some, ← toList_childPath_some, h]
      obtain ⟨hp, hname⟩ := append_point_inj ha hb hlist
      exact ⟨by rw [String.toList_inj.1 hp], String.toList_inj.1 hname⟩

/-- How far a place lies below the root, measured by its path. -/
def depth : Option String → Nat
  | none => 0
  | some path => path.length + 1

theorem depth_lt_childPath (parent : Option String) (name : String) :
    depth parent < depth (some (childPath parent name)) := by
  cases parent with
  | none => simp [depth]
  | some path =>
    have hpoint : ".".length = 1 := rfl
    simp only [depth, childPath, String.length_append]
    omega

/-! ## The paths that a filter follows -/

mutual

/-- The paths of the relations that a filter below a path follows, in the order in which planning
meets them. -/
def followed (parent : Option String) : Filter → List String
  | .field _ => []
  | .all items => followedByItems parent items
  | .any items => followedByItems parent items
  | .not item => followed parent item
  | .entity filter => followedByEntity parent filter
  | .related test => followedByTest parent test
  | .raw _ _ => []

/-- The paths that a filter of an entity follows. -/
def followedByEntity (parent : Option String) : EntityFilter → List String
  | ⟨_, _, nested, related, all, any, negated⟩ =>
    followedByNested parent nested ++ followedByTests parent related ++
      followedByItems parent all ++ followedByItems parent any ++ followedByOptional parent negated

/-- The paths that a test on a collection follows. -/
def followedByTest (parent : Option String) : RelatedTest → List String
  | .quantified name _ filter =>
    childPath parent name :: followed (some (childPath parent name)) filter
  | .size name _ _ => [childPath parent name]

/-- The paths that several filters follow. -/
def followedByItems (parent : Option String) : List Filter → List String
  | [] => []
  | f :: fs => followed parent f ++ followedByItems parent fs

/-- The paths that filters of related entities follow. -/
def followedByNested (parent : Option String) : List (String × Filter) → List String
  | [] => []
  | (name, f) :: fs =>
    childPath parent name :: followed (some (childPath parent name)) f ++
      followedByNested parent fs

/-- The paths that several tests on collections follow. -/
def followedByTests (parent : Option String) : List RelatedTest → List String
  | [] => []
  | t :: ts => followedByTest parent t ++ followedByTests parent ts

/-- The paths that a filter that may be missing follows. -/
def followedByOptional (parent : Option String) : Option Filter → List String
  | none => []
  | some f => followed parent f

end

theorem followedByItems_eq (parent : Option String) (fs : List Filter) :
    followedByItems parent fs = fs.flatMap (followed parent) := by
  induction fs with
  | nil => rfl
  | cons f fs ih => rw [followedByItems, ih, List.flatMap_cons]

theorem followedByTests_eq (parent : Option String) (ts : List RelatedTest) :
    followedByTests parent ts = ts.flatMap fun t => followed parent (.related t) := by
  induction ts with
  | nil => rfl
  | cons t ts ih => rw [followedByTests, ih, List.flatMap_cons, followed]

theorem followedByNested_eq (parent : Option String) (fs : List (String × Filter)) :
    followedByNested parent fs = fs.flatMap fun p =>
      childPath parent p.1 :: followed (some (childPath parent p.1)) p.2 := by
  induction fs with
  | nil => rfl
  | cons p fs ih => rw [followedByNested, ih, List.flatMap_cons]

theorem followedByOptional_eq (parent : Option String) (f? : Option Filter) :
    followedByOptional parent f? = f?.toList.flatMap (followed parent) := by
  cases f? with
  | none => rfl
  | some f => simp [followedByOptional]

theorem followedByEntity_eq (parent : Option String) (ef : EntityFilter) :
    followedByEntity parent ef =
      followedByNested parent ef.nested ++
        (ef.related.flatMap fun t => followed parent (.related t)) ++
        ef.all.flatMap (followed parent) ++ ef.any.flatMap (followed parent) ++
        ef.negated.toList.flatMap (followed parent) := by
  rw [← followedByTests_eq, ← followedByItems_eq, ← followedByItems_eq, ← followedByOptional_eq]
  obtain ⟨code, tests, nested, related, all, any, negated⟩ := ef
  rw [followedByEntity]

/-! ## Aliases -/

/-- The alias with a number; the root has number zero. -/
def numberedAlias (n : Nat) : String :=
  s!"t{n}"

theorem numberedAlias_inj {m n : Nat} (h : numberedAlias m = numberedAlias n) : m = n := by
  have hdigits : Nat.toDigits 10 m = Nat.toDigits 10 n := by
    have hlist := congrArg String.toList h
    simpa [numberedAlias, Nat.toString_eq_repr, Nat.toList_repr] using hlist
  rw [← Nat.ofDigitChars_toDigits (b := 10) (n := m) (by omega) (by omega), hdigits,
    Nat.ofDigitChars_toDigits (by omega) (by omega)]

theorem rootAlias_eq : rootAlias = numberedAlias 0 := by
  decide

theorem nextAlias_eq (plan : JoinPlan) : plan.nextAlias = numberedAlias (plan.joins.length + 1) :=
  rfl

end FilterQuery.JoinPlan
