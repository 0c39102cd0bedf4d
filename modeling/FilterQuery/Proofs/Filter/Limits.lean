import FilterQuery.Proofs.Filter.Acceptance
import FilterQuery.Proofs.Filter.Counting
import FilterQuery.Proofs.Filter.Entries
import FilterQuery.Proofs.Filter.Extent

/-!
# What the limits do

Limits refuse documents and do nothing else. `Bounded` compares a step of reading under limits with
the same step under other limits, and after another number of conditions, that it gets through: with
room for the extent of what is read both read the same, and without it the first one ends with a
filter that is too complex. It is closed under the ways in which readers are put together. The
readers are taken one by one, each for a pair of readers of the filters inside, and the levels of
nesting tie them together (`FilterDocument.readFilter_bounded`).

The limits are exact (`Filter.ofJson_exact_limits`): a document that is read where the limits
leave room is read as the same filter under other limits if and only if it keeps to them.
-/

namespace FilterQuery

/-! ## Reading under two limits -/

/-- A step of reading that starts after a number of conditions and has some levels of nesting left,
beside the same step after another number and under other limits. Where the other one ends, it has
counted the conditions of the extent, and the first one either has room for the extent and reads the
same, or is too complex. -/
structure Bounded {α : Type} (limits : FilterLimits) (levels : Nat) (extent : Extent)
    (count start : Nat) (x wide : Except FilterError (α × Nat)) : Prop where
  /-- The conditions are counted. -/
  counts : ∀ p, wide = .ok p → p.2 = start + extent.conditions
  /-- With room for the extent, the limits change nothing. -/
  within : ∀ p, wide = .ok p → extent.Within limits levels count →
    x = .ok (p.1, count + extent.conditions)
  /-- Without it, the limits refuse. -/
  beyond : ∀ p, wide = .ok p → count ≤ limits.maxConditions → ¬extent.Within limits levels count →
    ∃ excess, x = .error (.tooComplex excess)

namespace Bounded

variable {α β : Type} {limits : FilterLimits} {levels : Nat} {extent extent' : Extent}
  {count start : Nat} {x wide : Except FilterError (α × Nat)}

theorem ok {a : α} :
    Bounded limits levels .empty count start (.ok (a, count)) (.ok (a, start)) where
  counts p hp := by
    cases hp
    rfl
  within p hp _ := by
    cases hp
    rfl
  beyond _ _ hcount hbeyond := absurd ⟨Nat.zero_le levels, hcount⟩ hbeyond

theorem error {e : FilterError} : Bounded limits levels extent count start x (.error e) where
  counts _ hp := nomatch hp
  within _ hp := nomatch hp
  beyond _ hp := nomatch hp

theorem map {f : α × Nat → β × Nat} {g : α → β}
    (h : Bounded limits levels extent count start x wide) (hf : ∀ a n, f (a, n) = (g a, n)) :
    Bounded limits levels extent count start (x.map f) (wide.map f) where
  counts p hp := by
    obtain ⟨q, hq, rfl⟩ := map_eq_ok.1 hp
    rw [hf]
    exact h.counts q hq
  within p hp hwithin := by
    obtain ⟨q, hq, rfl⟩ := map_eq_ok.1 hp
    rw [h.within q hq hwithin, Except.map, hf, hf]
  beyond p hp hcount hbeyond := by
    obtain ⟨q, hq, -⟩ := map_eq_ok.1 hp
    obtain ⟨excess, hx⟩ := h.beyond q hq hcount hbeyond
    exact ⟨excess, by rw [hx]; rfl⟩

/-- One step after another: the second one starts after the conditions of the first. -/
theorem bind {f g : α × Nat → Except FilterError (β × Nat)}
    (h : Bounded limits levels extent count start x wide)
    (hf : ∀ a n m, Bounded limits levels extent' n m (f (a, n)) (g (a, m))) :
    Bounded limits levels (extent.beside extent') count start (x >>= f) (wide >>= g) where
  counts p hp := by
    obtain ⟨q, hq, hp⟩ := bind_eq_ok.1 hp
    have hfirst := h.counts q hq
    have hsecond := (hf q.1 0 q.2).counts p hp
    simp only [Extent.beside]
    omega
  within p hp hwithin := by
    obtain ⟨q, hq, hp⟩ := bind_eq_ok.1 hp
    simp only [Extent.Within, Extent.beside] at hwithin
    have hx := h.within q hq ⟨by omega, by omega⟩
    have hrest := (hf q.1 (count + extent.conditions) q.2).within p hp ⟨by omega, by omega⟩
    rw [Nat.add_assoc] at hrest
    exact bind_eq_ok.2 ⟨_, hx, hrest⟩
  beyond p hp hcount hbeyond := by
    obtain ⟨q, hq, hp⟩ := bind_eq_ok.1 hp
    simp only [Extent.Within, Extent.beside] at hbeyond
    by_cases hroom : extent.Within limits levels count
    · -- the first step is got through, so it is the second one that is beyond the limits
      have hx := h.within q hq hroom
      simp only [Extent.Within] at hroom
      have hrest := (hf q.1 (count + extent.conditions) q.2).beyond p hp (by omega)
      obtain ⟨excess, hf⟩ := hrest fun hwithin => by
        simp only [Extent.Within] at hwithin
        omega
      exact ⟨excess, by rw [hx]; exact hf⟩
    · obtain ⟨excess, hx⟩ := h.beyond q hq hcount hroom
      exact ⟨excess, by rw [hx]; rfl⟩

/-- What has been read is put into another form. -/
theorem yield {f : α × Nat → Except FilterError (β × Nat)} {g : α → β}
    (h : Bounded limits levels extent count start x wide) (hf : ∀ a n, f (a, n) = .ok (g a, n)) :
    Bounded limits levels extent count start (x >>= f) (wide >>= f) := by
  rw [← extent.beside_empty]
  refine h.bind fun a n m => ?_
  rw [hf, hf]
  exact .ok

/-- A step that counts nothing comes first. -/
theorem step {y : Except FilterError β} {f g : β → Except FilterError (α × Nat)}
    (hf : ∀ b, Bounded limits levels extent count start (f b) (g b)) :
    Bounded limits levels extent count start (y >>= f) (y >>= g) := by
  cases y with
  | error e => exact .error
  | ok b => exact hf b

/-- A condition is counted first. -/
theorem counted {wider : FilterLimits} {f g : Nat → Except FilterError (α × Nat)}
    (hf : Bounded limits levels extent (count + 1) (start + 1) (f (count + 1)) (g (start + 1))) :
    Bounded limits levels extent.counted count start
      (FilterDocument.countCondition limits count >>= f)
      (FilterDocument.countCondition wider start >>= g) where
  counts p hp := by
    obtain ⟨n, hn, hp⟩ := bind_eq_ok.1 hp
    obtain ⟨-, rfl⟩ := FilterDocument.countCondition_eq_ok.1 hn
    have hrest := hf.counts p hp
    simp only [Extent.counted]
    omega
  within p hp hwithin := by
    obtain ⟨n, hn, hp⟩ := bind_eq_ok.1 hp
    obtain ⟨-, rfl⟩ := FilterDocument.countCondition_eq_ok.1 hn
    simp only [Extent.Within, Extent.counted] at hwithin
    have hcounted : FilterDocument.countCondition limits count = .ok (count + 1) :=
      FilterDocument.countCondition_eq_ok.2 ⟨by omega, rfl⟩
    have hrest := hf.within p hp ⟨by omega, by omega⟩
    rw [Nat.add_right_comm] at hrest
    exact bind_eq_ok.2 ⟨_, hcounted, hrest⟩
  beyond p hp hcount hbeyond := by
    obtain ⟨n, hn, hp⟩ := bind_eq_ok.1 hp
    obtain ⟨-, rfl⟩ := FilterDocument.countCondition_eq_ok.1 hn
    simp only [Extent.Within, Extent.counted] at hbeyond
    unfold FilterDocument.countCondition
    split
    · exact ⟨_, rfl⟩
    · exact hf.beyond p hp (by omega) fun hwithin => by
        simp only [Extent.Within] at hwithin
        omega

/-- One level of nesting more is left for an object around what is read. -/
theorem deeper (h : Bounded limits levels extent count start x wide) :
    Bounded limits (levels + 1) extent.deeper count start x wide where
  counts := h.counts
  within p hp hwithin := h.within p hp ⟨Nat.le_of_succ_le_succ hwithin.1, hwithin.2⟩
  beyond p hp hcount hbeyond :=
    h.beyond p hp hcount fun hwithin => hbeyond ⟨Nat.succ_le_succ hwithin.1, hwithin.2⟩

/-- After the same number of conditions, the end is the same too. -/
theorem same (h : Bounded limits levels extent count count x wide) {p : α × Nat}
    (hp : wide = .ok p) (hwithin : extent.Within limits levels count) : x = .ok p := by
  rw [h.within p hp hwithin, ← h.counts p hp]

/-- Where both end, there was room. -/
theorem room (h : Bounded limits levels extent count start x wide) {p q : α × Nat}
    (hp : wide = .ok p) (hq : x = .ok q) (hcount : count ≤ limits.maxConditions) :
    extent.Within limits levels count := by
  refine Decidable.byContradiction fun hbeyond => ?_
  obtain ⟨excess, hx⟩ := h.beyond p hp hcount hbeyond
  cases hq.symm.trans hx

/-- Without a level left, whatever lies deeper is refused. -/
theorem exhausted {excess : Excess}
    (hcounts : ∀ p, wide = .ok p → p.2 = start + extent.conditions) :
    Bounded limits 0 extent.deeper count start (.error (.tooComplex excess)) wide where
  counts := hcounts
  within _ _ hwithin := absurd hwithin.1 (Nat.not_succ_le_zero extent.levels)
  beyond _ _ _ _ := ⟨excess, rfl⟩

end Bounded

namespace FilterDocument

variable {registry : Registry} {limits wider : FilterLimits} {levels : Nat} {entity : Entity}

/-- Two readers of the filters of an entity, the first one bounded beside the second one. -/
def BoundedFilters (registry : Registry) (limits : FilterLimits) (levels : Nat) (entity : Entity)
    (read wide : PartReader Filter) : Prop :=
  ∀ json count start, Bounded limits levels (json.extent registry entity).deeper count start
    (read json count) (wide json start)

/-! ## Logical words -/

section

variable {read wide : PartReader Filter}
  (hread : BoundedFilters registry limits levels entity read wide)

include hread

theorem readItems_bounded (word : String) (js : List Json) (count start : Nat) :
    Bounded limits levels (Json.extentOfItems registry entity js) count start
      (readItems read word js count) (readItems wide word js start) := by
  induction js generalizing count start with
  | nil => exact .ok
  | cons j js ih =>
    simp only [readItems, Json.extentOfItems]
    split
    · exact .error
    · exact (hread j count start).bind fun f n m => (ih n m).yield fun _ _ => rfl

theorem readList_bounded {key : String} (hkey : key = andWord ∨ key = orWord) (word : String)
    (json : Json) (count start : Nat) :
    Bounded limits levels (json.extentOfMember registry entity key) count start
      (readList read word json count) (readList wide word json start) := by
  cases json with
  | array items =>
    simp only [Json.extentOfMember, hkey, if_true]
    exact readItems_bounded hread word items count start
  | _ => exact .error

theorem readNegated_bounded (json : Json) (count start : Nat) :
    Bounded limits levels (json.extentOfMember registry entity notWord) count start
      (readNegated read json count) (readNegated wide json start) := by
  cases json with
  | object members => exact hread (.object members) count start
  | _ => exact .error

end

/-! ## Fields -/

/-- Each test is one condition. -/
theorem readTests_bounded (name : String) (kind : ValueKind) (ms : List (String × Json))
    (count start : Nat) :
    Bounded limits levels ⟨0, ms.length⟩ count start (readTests limits name kind ms count)
      (readTests wider name kind ms start) := by
  induction ms generalizing count start with
  | nil => exact .ok
  | cons m ms ih =>
    obtain ⟨key, j⟩ := m
    simp only [readTests]
    refine .step fun test => ?_
    show Bounded limits levels (Extent.counted ⟨0, ms.length⟩) count start _ _
    exact .counted <| (ih (count + 1) (start + 1)).yield fun _ _ => rfl

theorem readField_bounded (name : String) (field : Field) (json : Json) (count start : Nat)
    {key : String} (hword : isLogicalWord key = false) (hfield : entity.field? key = some field) :
    Bounded limits levels (json.extentOfMember registry entity key) count start
      (readField limits name field json count) (readField wider name field json start) := by
  unfold readField
  split
  · rename_i m ms
    simp only [isLogicalWord, Bool.or_eq_false_iff, beq_eq_false_iff_ne] at hword
    simp only [Json.extentOfMember, hword, hfield, or_self, if_false, Option.isSome_some, if_true]
    exact readTests_bounded name field.kind (m :: ms) count start
  · exact .error

/-! ## Relations -/

section

variable {target : Entity} {read wide : PartReader Filter}
  (hread : BoundedFilters registry limits levels target read wide)

include hread

theorem readKeyword_bounded (relation key : String) (q : Quantifier) (json : Json)
    (count start : Nat) :
    Bounded limits levels (json.extent registry target).deeper count start
      (readKeyword read relation key (.quantifier q) json count)
      (readKeyword wide relation key (.quantifier q) json start) := by
  simp only [readKeyword]
  split
  · exact (hread json count start).map fun _ _ => rfl
  · exact .error

omit hread in
/-- Asking for a number of rows goes no level deeper, and the other filters are not looked at. -/
theorem readKeyword_bounded_of_count {keyword : CollectionKeyword}
    (hkeyword : ∀ q, keyword ≠ .quantifier q) (relation key : String) (json : Json)
    (count start : Nat) :
    Bounded limits levels .empty count start (readKeyword read relation key keyword json count)
      (readKeyword wide relation key keyword json start) := by
  cases keyword with
  | quantifier q => exact absurd rfl (hkeyword q)
  | emptiness empty =>
    simp only [readKeyword]
    split
    · exact .ok
    · exact .error
  | size op =>
    simp only [readKeyword]
    split
    · split
      · exact .ok
      · exact .error
    · exact .error

/-- Each keyword is one condition. -/
theorem readKeywords_bounded (relation : String) (ms : List (String × Json)) (count start : Nat) :
    Bounded limits levels (Json.extentOfKeywords registry target ms) count start
      (readKeywords limits read relation ms count)
      (readKeywords wider wide relation ms start) := by
  induction ms generalizing count start with
  | nil => exact .ok
  | cons m ms ih =>
    obtain ⟨key, j⟩ := m
    unfold readKeywords Json.extentOfKeywords
    split
    · rename_i hkey
      simp only [hkey]
      exact ih count start
    · rename_i q hkey
      simp only [hkey]
      exact (readKeyword_bounded hread relation key q j count start).bind fun test n m =>
        .counted <| (ih (n + 1) (m + 1)).yield fun _ _ => rfl
    · rename_i keyword hkeyword hkey
      simp only [hkey]
      rw [← Extent.empty_beside (Extent.counted _)]
      exact (readKeyword_bounded_of_count hkeyword relation key j count start).bind fun test n m =>
        .counted <| (ih (n + 1) (m + 1)).yield fun _ _ => rfl

end

section

variable {read wide : Entity → PartReader Filter}
  (hread : ∀ target, BoundedFilters registry limits levels target (read target) (wide target))

include hread

theorem readRelation_bounded (name : String) (relation : Relation) (json : Json)
    (count start : Nat) (hword : isLogicalWord name = false) (hfield : entity.field? name = none)
    (hrelation : entity.relation? name = some relation) :
    Bounded limits levels (json.extentOfMember registry entity name) count start
      (readRelation registry limits read name relation json count)
      (readRelation registry wider wide name relation json start) := by
  unfold readRelation
  split
  · rename_i members
    simp only [isLogicalWord, Bool.or_eq_false_iff, beq_eq_false_iff_ne] at hword
    simp only [Json.extentOfMember, hword, hfield, hrelation, or_self, if_false, Option.isSome_none,
      Bool.false_eq_true, Option.bind_some]
    rw [Registry.lookup]
    cases htarget : registry.find? relation.target with
    | none => exact .error
    | some target =>
      simp only [bind, Except.bind]
      cases hkeyword : members.any fun m => isCollectionKeyword m.1 with
      | false =>
        have hnone : members.countP (fun m => isCollectionKeyword m.1) = 0 := by
          simpa [List.countP_eq_zero] using hkeyword
        simp only [hnone, if_true, Bool.false_eq_true, if_false]
        split
        · exact .error
        · exact (hread target (.object members) count start).map fun _ _ => rfl
      | true =>
        have hsome : members.countP (fun m => isCollectionKeyword m.1) ≠ 0 := by
          simpa [List.countP_eq_zero] using hkeyword
        simp only [if_neg hsome, if_true]
        split
        · exact .error
        · split
          · exact .error
          · split
            · exact .error
            · exact (readKeywords_bounded (hread target) name members count start).map
                fun _ _ => rfl
  · exact .error

/-! ## Filters of an entity -/

theorem readEntry_bounded (entity : Entity) (key : String) (json : Json) (count start : Nat) :
    Bounded limits levels (json.extentOfMember registry entity key) count start
      (readEntry registry limits read entity key json count)
      (readEntry registry wider wide entity key json start) := by
  unfold readEntry
  split
  · rename_i hand
    exact (readList_bounded (hread entity) (Or.inl hand) andWord json count start).map
      fun _ _ => rfl
  · rename_i hand
    split
    · rename_i hor
      exact (readList_bounded (hread entity) (Or.inr hor) orWord json count start).map
        fun _ _ => rfl
    · rename_i hor
      split
      · rename_i hnot
        subst hnot
        exact (readNegated_bounded (hread entity) json count start).map fun _ _ => rfl
      · rename_i hnot
        have hword : isLogicalWord key = false := by simp [isLogicalWord, hand, hor, hnot]
        split
        · rename_i field hfield
          exact (readField_bounded key field json count start hword hfield).map fun _ _ => rfl
        · rename_i hfield
          split
          · rename_i relation hrelation
            exact (readRelation_bounded hread key relation json count start hword hfield
              hrelation).map fun _ _ => rfl
          · exact .error

theorem readEntries_bounded (entity : Entity) (ms : List (String × Json)) (count start : Nat) :
    Bounded limits levels (Json.extentOfMembers registry entity ms) count start
      (readEntries registry limits read entity ms count)
      (readEntries registry wider wide entity ms start) := by
  induction ms generalizing count start with
  | nil => exact .ok
  | cons m ms ih =>
    obtain ⟨key, j⟩ := m
    simp only [readEntries, Json.extentOfMembers]
    exact (readEntry_bounded hread entity key j count start).bind fun entry n m =>
      (ih n m).yield fun _ _ => rfl

end

/-- With some levels of nesting left, and other limits with other levels left beside them, reading
is bounded by the extent of the document. -/
theorem readFilter_bounded (registry : Registry) (limits wider : FilterLimits)
    (levels others : Nat) (entity : Entity) :
    BoundedFilters registry limits levels entity (readFilter registry limits levels entity)
      (readFilter registry wider others entity) := by
  induction others generalizing levels entity with
  | zero => exact fun json count start => .error
  | succ others ih =>
    intro json count start
    have hobject : ∀ left, Bounded limits (left + 1) (json.extent registry entity).deeper count
        start (readFilter registry limits (left + 1) entity json count)
        (readFilter registry wider (others + 1) entity json start) := by
      intro left
      cases json with
      | object members =>
        rw [readFilter_object, readFilter_object]
        exact .deeper (.map (readEntries_bounded (ih left) entity members count start)
          fun _ _ => rfl)
      | _ => exact .error
    cases levels with
    | zero => exact .exhausted (hobject 0).counts
    | succ levels => exact hobject levels

end FilterDocument

/-! ## Documents under limits -/

namespace Filter

variable {registry : Registry} {limits wide : FilterLimits} {code : String} {entity : Entity}
  {json : Json} {filter : Filter}

/-- Reading for a registered entity, as far as its error goes. -/
theorem ofJson_eq_error (hentity : registry.find? code = some entity) {e : FilterError} :
    ofJson registry limits (some code) json = .error e ↔
      FilterDocument.readFilter registry limits (limits.maxDepth + 1) entity json 0 = .error e := by
  simp only [ofJson, bind, Except.bind, Registry.lookup_eq_ok.2 hentity, FilterDocument.read,
    FilterDocument.levelsOf]
  cases FilterDocument.readFilter registry limits (limits.maxDepth + 1) entity json 0 with
  | error e' => simp [Except.map]
  | ok p => simp [Except.map]

/-- What is read under any limits has the conditions of the extent of its document. -/
theorem conditionCount_of_ofJson (hentity : registry.find? code = some entity)
    (h : ofJson registry limits (some code) json = .ok filter) :
    filter.conditionCount = (json.extent registry entity).conditions := by
  obtain ⟨p, hp, rfl⟩ := (ofJson_eq_ok hentity).1 h
  have hread := FilterDocument.readFilter_counts registry limits (limits.maxDepth + 1) entity json 0
    p hp
  have hextent := (FilterDocument.readFilter_bounded registry limits limits (limits.maxDepth + 1)
    (limits.maxDepth + 1) entity json 0 0).counts p hp
  simp only [Extent.deeper] at hextent
  omega

/-- A filter that is read under some limits is read alike under others that have room for it. -/
theorem ofJson_of_within (hentity : registry.find? code = some entity)
    (h : ofJson registry wide (some code) json = .ok filter)
    (hwithin : (json.extent registry entity).Within limits limits.maxDepth 0) :
    ofJson registry limits (some code) json = .ok filter := by
  obtain ⟨p, hp, rfl⟩ := (ofJson_eq_ok hentity).1 h
  have hbounded := FilterDocument.readFilter_bounded registry limits wide (limits.maxDepth + 1)
    (wide.maxDepth + 1) entity json 0 0
  have hroom : (json.extent registry entity).deeper.Within limits (limits.maxDepth + 1) 0 :=
    ⟨Nat.succ_le_succ hwithin.1, hwithin.2⟩
  exact (ofJson_eq_ok hentity).2 ⟨_, hbounded.within p hp hroom, rfl⟩

/-- A filter that is read under some limits is too complex for others without room for it. -/
theorem ofJson_of_not_within (hentity : registry.find? code = some entity)
    (h : ofJson registry wide (some code) json = .ok filter)
    (hbeyond : ¬(json.extent registry entity).Within limits limits.maxDepth 0) :
    ∃ excess, ofJson registry limits (some code) json = .error (.tooComplex excess) := by
  obtain ⟨p, hp, rfl⟩ := (ofJson_eq_ok hentity).1 h
  have hbounded := FilterDocument.readFilter_bounded registry limits wide (limits.maxDepth + 1)
    (wide.maxDepth + 1) entity json 0 0
  have hroom : ¬(json.extent registry entity).deeper.Within limits (limits.maxDepth + 1) 0 :=
    fun hwithin => hbeyond ⟨Nat.le_of_succ_le_succ hwithin.1, hwithin.2⟩
  obtain ⟨excess, hx⟩ := hbounded.beyond p hp (Nat.zero_le _) hroom
  exact ⟨excess, (ofJson_eq_error hentity).2 hx⟩

/-- Limits refuse what exceeds them and change nothing else. Beside limits that leave room for a
document, any others read it as a filter if and only if it is read as that filter where there is
room, its levels are within the depth and the conditions of the filter are within the number
allowed; where it is a filter and one of the two is exceeded, the error is that it is too complex;
and the conditions of a filter that is read are those of the document. -/
theorem ofJson_exact_limits (hentity : registry.find? code = some entity)
    (hdepth : json.depth ≤ wide.maxDepth + 1) (hcount : json.memberCount ≤ wide.maxConditions)
    (limits : FilterLimits) :
    (∀ filter, ofJson registry limits (some code) json = .ok filter ↔
      ofJson registry wide (some code) json = .ok filter ∧
        (json.extent registry entity).levels ≤ limits.maxDepth ∧
        filter.conditionCount ≤ limits.maxConditions) ∧
    (∀ filter, ofJson registry wide (some code) json = .ok filter →
      limits.maxDepth < (json.extent registry entity).levels ∨
        limits.maxConditions < filter.conditionCount →
      ∃ excess, ofJson registry limits (some code) json = .error (.tooComplex excess)) ∧
    (∀ filter, ofJson registry limits (some code) json = .ok filter →
      filter.conditionCount = (json.extent registry entity).conditions) := by
  have hbeyond : ∀ filter, ofJson registry wide (some code) json = .ok filter →
      limits.maxDepth < (json.extent registry entity).levels ∨
        limits.maxConditions < filter.conditionCount →
      ∃ excess, ofJson registry limits (some code) json = .error (.tooComplex excess) := by
    intro filter hwide hexceeded
    have hconditions := conditionCount_of_ofJson hentity hwide
    refine ofJson_of_not_within hentity hwide fun hwithin => ?_
    obtain ⟨hlevels, hroom⟩ := hwithin
    omega
  refine ⟨fun filter => ⟨fun h => ?_, ?_⟩, hbeyond, fun filter => conditionCount_of_ofJson hentity⟩
  · -- the grammar has what is read, and with room for it the document is read
    have hvalid := valid_of_ofJson hentity h
    obtain ⟨filter', hwide⟩ := (ofJson_accepts_iff hentity hdepth hcount).2 hvalid
    by_cases hwithin : (json.extent registry entity).Within limits limits.maxDepth 0
    · have hsame := ofJson_of_within hentity hwide hwithin
      cases h.symm.trans hsame
      have hconditions := conditionCount_of_ofJson hentity h
      obtain ⟨hlevels, hroom⟩ := hwithin
      exact ⟨hwide, hlevels, by omega⟩
    · obtain ⟨excess, hx⟩ := ofJson_of_not_within hentity hwide hwithin
      cases h.symm.trans hx
  · rintro ⟨hwide, hlevels, hroom⟩
    have hconditions := conditionCount_of_ofJson hentity hwide
    exact ofJson_of_within hentity hwide ⟨hlevels, by omega⟩

theorem ofJson_exact_limits_deck :
    (∃ filter, ofJson Catalog.registry ⟨65536, 1, 7⟩ (some "deck") Catalog.rareDecksDocument =
      .ok filter) ∧
    (∃ excess, ofJson Catalog.registry ⟨65536, 0, 7⟩ (some "deck") Catalog.rareDecksDocument =
      .error (.tooComplex excess)) ∧
    (∃ excess, ofJson Catalog.registry ⟨65536, 1, 6⟩ (some "deck") Catalog.rareDecksDocument =
      .error (.tooComplex excess)) := by
  have hdeck : Catalog.registry.find? "deck" = some Catalog.deck := rfl
  have hdepth : Catalog.rareDecksDocument.depth ≤ FilterLimits.default.maxDepth + 1 := by
    decide
  have hcount : Catalog.rareDecksDocument.memberCount ≤ FilterLimits.default.maxConditions := by
    decide
  have hexact := ofJson_exact_limits hdeck hdepth hcount
  have hextent : Catalog.rareDecksDocument.extent Catalog.registry Catalog.deck = ⟨1, 7⟩ := by
    decide
  obtain ⟨filter, hread⟩ : ∃ filter, ofJson Catalog.registry .default (some "deck")
      Catalog.rareDecksDocument = .ok filter := ⟨_, rfl⟩
  have hlevels : (Catalog.rareDecksDocument.extent Catalog.registry Catalog.deck).levels = 1 :=
    congrArg Extent.levels hextent
  have hconditions : filter.conditionCount = 7 :=
    ((hexact .default).2.2 filter hread).trans (congrArg Extent.conditions hextent)
  refine ⟨⟨filter, ((hexact _).1 filter).2 ⟨hread, ?_, ?_⟩⟩,
    (hexact _).2.1 filter hread (Or.inl ?_), (hexact _).2.1 filter hread (Or.inr ?_)⟩
  · exact Nat.le_of_eq hlevels
  · exact Nat.le_of_eq hconditions
  · exact Nat.lt_of_lt_of_eq Nat.zero_lt_one hlevels.symm
  · exact Nat.lt_of_lt_of_eq (Nat.lt_succ_self 6) hconditions.symm

end Filter

end FilterQuery
