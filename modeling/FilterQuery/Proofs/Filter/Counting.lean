import FilterQuery.Filter.Detection
import FilterQuery.Proofs.Result

/-!
# Counting while reading

Readers pass a number of conditions along, and a filter that has been read can be counted again
(`Filter.conditionCount`). The two numbers agree: whatever a reader reads, it ends with as many
conditions more than it starts with as the value holds (`readFilter_counts`). The readers are taken
one by one, each for a reader of the filters inside that counts; the levels of nesting tie them
together.
-/

namespace FilterQuery

/-! ## Parts of filters -/

namespace Filter

theorem countAll_append (fs gs : List Filter) :
    countAll (fs ++ gs) = countAll fs + countAll gs := by
  induction fs with
  | nil => simp [countAll]
  | cons f fs ih =>
    simp only [List.cons_append, countAll, ih]
    omega

theorem countNested_append (fs gs : List (String × Filter)) :
    countNested (fs ++ gs) = countNested fs + countNested gs := by
  induction fs with
  | nil => simp [countNested]
  | cons f fs ih =>
    obtain ⟨name, f⟩ := f
    simp only [List.cons_append, countNested, ih]
    omega

theorem countRelated_append (ts us : List RelatedTest) :
    countRelated (ts ++ us) = countRelated ts + countRelated us := by
  induction ts with
  | nil => simp [countRelated]
  | cons t ts ih =>
    simp only [List.cons_append, countRelated, ih]
    omega

end Filter

/-- The number of conditions of a filter of an entity, by its parts. -/
theorem EntityFilter.conditionCount_eq (ef : EntityFilter) :
    ef.conditionCount = ef.fields.length + Filter.countNested ef.nested +
      Filter.countRelated ef.related + (Filter.countAll ef.all + Filter.countAll ef.any +
        Filter.countOptional ef.negated) := by
  cases ef
  rw [EntityFilter.conditionCount]

namespace FilterDocument

variable {registry : Registry} {limits : FilterLimits} {entity : Entity}

/-- A step of reading that starts after a number of conditions counts what it reads. -/
def Counts {α : Type} (size : α → Nat) (count : Nat) (x : Except FilterError (α × Nat)) : Prop :=
  ∀ p, x = .ok p → p.2 = count + size p.1

/-- A reader that counts the filters that it reads. -/
def CountsFilters (read : PartReader Filter) : Prop :=
  ∀ json count, Counts Filter.conditionCount count (read json count)

theorem countCondition_eq_ok {count n : Nat} :
    countCondition limits count = .ok n ↔ count + 1 ≤ limits.maxConditions ∧ n = count + 1 := by
  unfold countCondition
  split
  · simp
    omega
  · simp [eq_comm]
    omega

/-! ## Logical words -/

section

variable {read : PartReader Filter} (hread : CountsFilters read)

include hread

theorem readItems_counts (word : String) (js : List Json) (count : Nat) :
    Counts Filter.countAll count (readItems read word js count) := by
  induction js generalizing count with
  | nil =>
    intro p hp
    obtain rfl := Except.ok.inj hp
    rfl
  | cons j js ih =>
    intro p hp
    unfold readItems at hp
    split at hp
    · cases hp
    · simp only [bind_eq_ok] at hp
      obtain ⟨q, hq, r, hr, hp⟩ := hp
      obtain rfl := Except.ok.inj hp
      have hfirst := hread j count q hq
      have hrest := ih q.2 r hr
      simp only [Filter.countAll]
      omega

theorem readList_counts (word : String) (json : Json) (count : Nat) :
    Counts Filter.countAll count (readList read word json count) := by
  unfold readList
  split
  · exact readItems_counts hread word _ count
  · intro p hp
    cases hp

theorem readNegated_counts (json : Json) (count : Nat) :
    Counts Filter.conditionCount count (readNegated read json count) := by
  unfold readNegated
  split
  · exact hread json count
  · intro p hp
    cases hp

theorem readCombinator_counts (word : String) (json : Json) (count : Nat) :
    Counts Filter.conditionCount count (readCombinator read word json count) := by
  intro p hp
  unfold readCombinator at hp
  split at hp
  · obtain ⟨q, hq, rfl⟩ := map_eq_ok.1 hp
    exact readList_counts hread _ json count q hq
  · split at hp
    · obtain ⟨q, hq, rfl⟩ := map_eq_ok.1 hp
      exact readList_counts hread _ json count q hq
    · obtain ⟨q, hq, rfl⟩ := map_eq_ok.1 hp
      exact readNegated_counts hread json count q hq

theorem readCombinators_counts (ms : List (String × Json)) (count : Nat) :
    Counts Filter.countAll count (readCombinators read ms count) := by
  induction ms generalizing count with
  | nil =>
    intro p hp
    obtain rfl := Except.ok.inj hp
    rfl
  | cons m ms ih =>
    obtain ⟨word, j⟩ := m
    intro p hp
    simp only [readCombinators, bind_eq_ok] at hp
    obtain ⟨q, hq, r, hr, hp⟩ := hp
    obtain rfl := Except.ok.inj hp
    have hfirst := readCombinator_counts hread word j count q hq
    have hrest := ih q.2 r hr
    simp only [Filter.countAll]
    omega

end

theorem conditionCount_combine (fs : List Filter) :
    (combine fs).conditionCount = Filter.countAll fs := by
  unfold combine
  split
  · simp [Filter.countAll]
  · rfl

/-! ## Fields -/

theorem readTests_counts (name : String) (kind : ValueKind) (ms : List (String × Json))
    (count : Nat) : Counts List.length count (readTests limits name kind ms count) := by
  induction ms generalizing count with
  | nil =>
    intro p hp
    obtain rfl := Except.ok.inj hp
    rfl
  | cons m ms ih =>
    obtain ⟨key, j⟩ := m
    intro p hp
    simp only [readTests, bind_eq_ok, countCondition_eq_ok] at hp
    obtain ⟨test, -, n, ⟨-, rfl⟩, r, hr, hp⟩ := hp
    obtain rfl := Except.ok.inj hp
    have hrest := ih (count + 1) r hr
    simp only [List.length_cons]
    omega

theorem readField_counts (name : String) (field : Field) (json : Json) (count : Nat) :
    Counts List.length count (readField limits name field json count) := by
  unfold readField
  split
  · exact readTests_counts name field.kind _ count
  · intro p hp
    cases hp

/-! ## Relations -/

/-- The number of conditions that a relation adds to a filter. -/
def RelationPart.conditionCount : RelationPart → Nat
  | .nested f => f.conditionCount
  | .related ts => Filter.countRelated ts

theorem RelationPart.conditionCount_addTo (part : RelationPart) (relation : String)
    (ef : EntityFilter) :
    (part.addTo relation ef).conditionCount = ef.conditionCount + part.conditionCount := by
  cases part with
  | nested f =>
    simp only [EntityFilter.conditionCount_eq, addTo, conditionCount, Filter.countNested_append,
      Filter.countNested]
    omega
  | related ts =>
    simp only [EntityFilter.conditionCount_eq, addTo, conditionCount, Filter.countRelated_append]
    omega

/-- A keyword is one condition more than what is read of its operand. -/
theorem readKeyword_counts {read : PartReader Filter} (hread : CountsFilters read)
    (relation key : String) (keyword : CollectionKeyword) (json : Json) (count : Nat)
    {p : RelatedTest × Nat} (hp : readKeyword read relation key keyword json count = .ok p) :
    p.2 + 1 = count + p.1.conditionCount := by
  cases keyword with
  | quantifier q =>
    simp only [readKeyword] at hp
    split at hp
    · obtain ⟨r, hr, rfl⟩ := map_eq_ok.1 hp
      have hinner := hread json count r hr
      simp only [RelatedTest.conditionCount]
      omega
    · cases hp
  | emptiness empty =>
    simp only [readKeyword] at hp
    split at hp
    · obtain rfl := Except.ok.inj hp
      rfl
    · cases hp
  | size op =>
    simp only [readKeyword] at hp
    split at hp
    · split at hp
      · obtain rfl := Except.ok.inj hp
        rfl
      · cases hp
    · cases hp

theorem readKeywords_counts {read : PartReader Filter} (hread : CountsFilters read)
    (relation : String) (ms : List (String × Json)) (count : Nat) :
    Counts Filter.countRelated count (readKeywords limits read relation ms count) := by
  induction ms generalizing count with
  | nil =>
    intro p hp
    obtain rfl := Except.ok.inj hp
    rfl
  | cons m ms ih =>
    obtain ⟨key, j⟩ := m
    intro p hp
    unfold readKeywords at hp
    split at hp
    · exact ih count p hp
    · simp only [bind_eq_ok, countCondition_eq_ok] at hp
      obtain ⟨q, hq, n, ⟨-, rfl⟩, r, hr, hp⟩ := hp
      obtain rfl := Except.ok.inj hp
      have hfirst := readKeyword_counts hread relation key _ j count hq
      have hrest := ih (q.2 + 1) r hr
      simp only [Filter.countRelated]
      omega

variable {read : Entity → PartReader Filter} (hread : ∀ target, CountsFilters (read target))

include hread

theorem readRelation_counts (name : String) (relation : Relation) (json : Json) (count : Nat) :
    Counts RelationPart.conditionCount count
      (readRelation registry limits read name relation json count) := by
  intro p hp
  unfold readRelation at hp
  split at hp
  · obtain ⟨target, -, hp⟩ := bind_eq_ok.1 hp
    split at hp
    · cases hp
    · simp only at hp
      split at hp
      · obtain ⟨q, hq, rfl⟩ := map_eq_ok.1 hp
        exact hread target _ count q hq
      · split at hp
        · cases hp
        · split at hp
          · cases hp
          · obtain ⟨q, hq, rfl⟩ := map_eq_ok.1 hp
            exact readKeywords_counts (hread target) name _ count q hq
  · cases hp

/-! ## Filters of an entity -/

omit hread in
theorem countOptional_addNegated (previous : Option Filter) (f : Filter) :
    Filter.countOptional (addNegated previous f) =
      Filter.countOptional previous + f.conditionCount := by
  cases previous with
  | none => simp [addNegated, Filter.countOptional]
  | some g => simp [addNegated, Filter.countOptional, Filter.conditionCount, Filter.countAll]

/-- The conditions of a member are added to those of the filter that it is read into. -/
theorem readMember_counts (key : String) (json : Json) (ef : EntityFilter) (count : Nat)
    {p : EntityFilter × Nat}
    (hp : readMember registry limits read entity key json ef count = .ok p) :
    p.2 + ef.conditionCount = count + p.1.conditionCount := by
  unfold readMember at hp
  split at hp
  · obtain ⟨q, hq, rfl⟩ := map_eq_ok.1 hp
    have hlist := readList_counts (hread entity) andWord json count q hq
    simp only [EntityFilter.conditionCount_eq, Filter.countAll_append]
    omega
  · split at hp
    · obtain ⟨q, hq, rfl⟩ := map_eq_ok.1 hp
      have hlist := readList_counts (hread entity) orWord json count q hq
      simp only [EntityFilter.conditionCount_eq, Filter.countAll_append]
      omega
    · split at hp
      · obtain ⟨q, hq, rfl⟩ := map_eq_ok.1 hp
        have hnegated := readNegated_counts (hread entity) json count q hq
        simp only [EntityFilter.conditionCount_eq, countOptional_addNegated]
        omega
      · split at hp
        · obtain ⟨q, hq, rfl⟩ := map_eq_ok.1 hp
          have hfield := readField_counts key _ json count q hq
          simp only [EntityFilter.conditionCount_eq, List.length_append]
          omega
        · split at hp
          · obtain ⟨q, hq, rfl⟩ := map_eq_ok.1 hp
            have hrelation := readRelation_counts hread key _ json count q hq
            simp only [RelationPart.conditionCount_addTo]
            omega
          · cases hp

theorem readMembers_counts (ms : List (String × Json)) (ef : EntityFilter) (count : Nat)
    {p : EntityFilter × Nat}
    (hp : readMembers registry limits read entity ms ef count = .ok p) :
    p.2 + ef.conditionCount = count + p.1.conditionCount := by
  induction ms generalizing ef count with
  | nil =>
    obtain rfl := Except.ok.inj hp
    rfl
  | cons m ms ih =>
    obtain ⟨key, j⟩ := m
    obtain ⟨q, hq, hp⟩ := bind_eq_ok.1 hp
    have hfirst := readMember_counts hread key j ef count hq
    have hrest := ih q.1 q.2 hp
    omega

omit hread

/-- Whatever the limits, the conditions counted while a filter is read are those that the filter
has. -/
theorem readFilter_counts (registry : Registry) (limits : FilterLimits) (levels : Nat)
    (entity : Entity) : CountsFilters (readFilter registry limits levels entity) := by
  induction levels generalizing entity with
  | zero =>
    intro json count p hp
    cases hp
  | succ levels ih =>
    intro json count p hp
    unfold readFilter at hp
    split at hp
    · split at hp
      · obtain ⟨q, hq, rfl⟩ := map_eq_ok.1 hp
        simp only [conditionCount_combine]
        exact readCombinators_counts (ih entity) _ count q hq
      · obtain ⟨q, hq, rfl⟩ := map_eq_ok.1 hp
        have hmembers := readMembers_counts ih _ _ count hq
        have hempty : (EntityFilter.everything entity.code).conditionCount = 0 := rfl
        simp only [Filter.conditionCount]
        omega
    · cases hp

end FilterDocument

end FilterQuery
