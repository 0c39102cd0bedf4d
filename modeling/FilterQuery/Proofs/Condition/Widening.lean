import FilterQuery.Proofs.Condition.Renaming
import FilterQuery.Proofs.JoinPlan.Correspondence

/-!
# Conditions over two plans

A filter that resolves over two plans of one root, the second of which has all the joins of the
first, becomes the same condition over both, but for the aliases and for the single-valued joins
that only the second plan has: these stand in the subqueries where that plan puts them
(`Resolution.filter_widens`).
-/

namespace FilterQuery

open List (Forall₂)

namespace JoinPlan

variable {registry : Registry} {own other : JoinPlan} {j k : PlannedJoin}

/-! ## Subqueries -/

/-- The join for a path becomes that of the other plan when its aliases are renamed. -/
theorem Counterparts.join (h : Counterparts own other j k) :
    j.join.rename (own.aliasOver other) = k.join := by
  rw [PlannedJoin.join, PlannedJoin.join, Join.rename, PlannedJoin.condition,
    PlannedJoin.condition, Condition.rename_columnsMatch, h.table, h.relation, h.aliasName,
    h.parent]

theorem Counterparts.isInside (h : Counterparts own other j k) (anchor : String) :
    j.isInside anchor = k.isInside anchor := by
  rw [PlannedJoin.isInside, PlannedJoin.isInside, h.relation, h.placement]

/-- Different joins of a plan are written differently. -/
theorem Planned.join_inj (h : Planned registry own) (hj : j ∈ own.joins) (hk : k ∈ own.joins)
    (hjoin : j.join = k.join) : j = k :=
  h.eq_of_alias hj hk (congrArg Join.aliasName hjoin)

theorem Planned.nodup (h : Planned registry own) : own.joins.Nodup :=
  List.Nodup.of_map _ h.paths_nodup

variable (hown : Planned registry own) (hother : Planned registry other)
  (hplain : registry.PlainRelations) (hroot : own.root = other.root)
  (hcovers : ∀ j ∈ own.joins, ∃ k ∈ other.joins, k.path = j.path)

include hown hother hplain hroot hcovers

/-- The joins of a subquery for paths that the first plan has are the joins of its subquery. -/
theorem Planned.innerJoins_perm (anchor : String) :
    (((other.innerJoins anchor).filter fun k => (own.find? k.path).isSome).map
      PlannedJoin.join).Perm
        ((own.innerJoins anchor).map fun j => j.join.rename (own.aliasOver other)) := by
  have hcounterpart : ∀ {i k}, i ∈ own.joins → k ∈ other.joins → k.path = i.path →
      Counterparts own other i k := fun hi hk hpath =>
    hown.agrees hother hplain hroot hi hk hpath.symm
  rw [List.perm_ext_iff_of_nodup]
  · intro join
    simp only [List.mem_map, List.mem_filter, innerJoins]
    constructor
    · rintro ⟨k, ⟨⟨hk, hinside⟩, hfound⟩, rfl⟩
      obtain ⟨i, hi⟩ := Option.isSome_iff_exists.1 hfound
      obtain ⟨hi, hpath⟩ := mem_of_find? hi
      have hik := hcounterpart hi hk hpath.symm
      exact ⟨i, ⟨hi, by rw [hik.isInside, hinside]⟩, hik.join⟩
    · rintro ⟨i, ⟨hi, hinside⟩, rfl⟩
      obtain ⟨k, hk, hpath⟩ := hcovers i hi
      have hik := hcounterpart hi hk hpath
      refine ⟨k, ⟨⟨hk, by rw [← hik.isInside, hinside]⟩, ?_⟩, hik.join.symm⟩
      rw [hpath, hown.find?_eq_some hi]
      rfl
  · refine List.Nodup.map_on ?_ ((hother.nodup.filter _).filter _)
    intro i hi k hk hjoin
    exact hother.join_inj (List.mem_filter.1 (List.mem_filter.1 hi).1).1
      (List.mem_filter.1 (List.mem_filter.1 hk).1).1 hjoin
  · refine List.Nodup.map_on ?_ (hown.nodup.filter _)
    intro i hi i' hi' hjoin
    obtain ⟨hi, -⟩ := List.mem_filter.1 hi
    obtain ⟨hi', -⟩ := List.mem_filter.1 hi'
    obtain ⟨k, hk, hpath⟩ := hcovers i hi
    obtain ⟨k', hk', hpath'⟩ := hcovers i' hi'
    rw [(hcounterpart hi hk hpath).join, (hcounterpart hi' hk' hpath').join] at hjoin
    obtain rfl := hother.join_inj hk hk' hjoin
    exact hown.eq_of_path hi hi' (hpath.symm.trans hpath')

/-- The subquery of a collection is widened by the joins that only the other plan has. -/
theorem Planned.subquery_widens (hj : j ∈ own.joins) (hk : k ∈ other.joins)
    (hpath : j.path = k.path) {inner inner' : Condition}
    (hinner : Condition.Widens (own.AddedBy other) (inner.rename (own.aliasOver other)) inner') :
    Subquery.Widens (own.AddedBy other) ((own.subquery j inner).rename (own.aliasOver other))
      (other.subquery k inner') := by
  have hjk := hown.agrees hother hplain hroot hj hk hpath
  have hcondition : j.condition.rename (own.aliasOver other) = k.condition :=
    congrArg Join.on hjk.join
  rw [subquery, subquery, Subquery.rename, Join.renames_eq_map, List.map_map, hcondition,
    hjk.aliasName, hjk.table, hpath]
  refine .mk (((other.innerJoins k.path).filter fun i =>
    !(own.find? i.path).isSome).map PlannedJoin.join) ?_ ?_ hinner
  · refine List.Perm.trans ?_
      ((hown.innerJoins_perm hother hplain hroot hcovers k.path).append_right _)
    rw [← List.map_append]
    exact ((List.filter_append_perm _ _).map _).symm
  · intro join hjoin
    obtain ⟨i, hi, rfl⟩ := List.mem_map.1 hjoin
    obtain ⟨hi, hnew⟩ := List.mem_filter.1 hi
    exact ⟨k, hk, rfl, i, hi, by simpa using hnew, rfl⟩

end JoinPlan

namespace Resolution

open JoinPlan (Planned)

variable {registry : Registry} {own other : JoinPlan} {now : Instant}
  {scope scope' : PlanScope} {f : Filter} {name : String}

/-! ## Conditions over two plans -/

theorem rename_entityParts (ρ : String → String)
    (tests nested related all any negated : List Condition) :
    (entityParts tests nested related all any negated).map (Condition.rename ρ) =
      entityParts (tests.map (Condition.rename ρ)) (nested.map (Condition.rename ρ))
        (related.map (Condition.rename ρ)) (all.map (Condition.rename ρ))
        (any.map (Condition.rename ρ)) (negated.map (Condition.rename ρ)) := by
  have hnot : Condition.rename ρ ∘ Condition.not = Condition.not ∘ Condition.rename ρ := rfl
  cases any with
  | nil => simp [entityParts, hnot]
  | cons c cs => simp [entityParts, hnot, Condition.rename_anyOf]

theorem entityParts_widens {extra : String → Join → Prop}
    {tests nested related all any negated tests' nested' related' all' any' negated' :
      List Condition}
    (h₁ : Forall₂ (Condition.Widens extra) tests tests')
    (h₂ : Forall₂ (Condition.Widens extra) nested nested')
    (h₃ : Forall₂ (Condition.Widens extra) related related')
    (h₄ : Forall₂ (Condition.Widens extra) all all')
    (h₅ : Forall₂ (Condition.Widens extra) any any')
    (h₆ : Forall₂ (Condition.Widens extra) negated negated') :
    Forall₂ (Condition.Widens extra) (entityParts tests nested related all any negated)
      (entityParts tests' nested' related' all' any' negated') := by
  have hany : Forall₂ (Condition.Widens extra)
      (if any.isEmpty then [] else [Condition.anyOf any])
      (if any'.isEmpty then [] else [Condition.anyOf any']) := by
    cases h₅ with
    | nil => exact .nil
    | cons hc hcs => exact .cons (.anyOf (.cons hc hcs)) .nil
  have hnegated : Forall₂ (Condition.Widens extra) (negated.map .not) (negated'.map .not) := by
    rw [List.forall₂_map_left_iff, List.forall₂_map_right_iff]
    exact h₆.imp fun _ _ hc => .not hc
  exact List.rel_append (List.rel_append (List.rel_append (List.rel_append
    (List.rel_append h₁ h₂) h₃) h₄) hany) hnegated

section

variable (hown : Planned registry own) (hother : Planned registry other)
  (hplain : registry.PlainRelations) (hroot : own.root = other.root)

include hown hother hplain hroot

/-- A relation that two plans of one root resolve leads to the joins that they have for one path. -/
theorem child_agrees (hs : own.Reaches scope) (hs' : other.Reaches scope')
    (hpath : scope.path = scope'.path) {k : PlannedJoin}
    (hk : JoinPlan.Follows registry scope' name k) {j : PlannedJoin} {inside : ResolveScope}
    (h : child own name scope.place = .ok (j, inside)) :
    j ∈ own.joins ∧ inside = j.scope.place ∧ j.path = k.path ∧ j.relation = k.relation := by
  obtain ⟨hentity, -⟩ := hown.scope_agrees hother hplain hroot hs hs' hpath
  have hrel : registry.relation? scope.entity name = some k.relation := by
    rw [hentity, hk.relation]
  obtain ⟨hj, hfollows, hrelation, hinside⟩ := child_spec hown hplain hs hrel h
  exact ⟨hj, hinside, by rw [hfollows.path, hk.path, hpath], hrelation⟩

/-- Where a filter resolves over two plans of one root, the second of which has all joins of the
first, its condition over the second is its condition over the first with other aliases and with
further joins in the subqueries. -/
theorem filter_widens (hcovers : ∀ j ∈ own.joins, ∃ k ∈ other.joins, k.path = j.path)
    (hf : f.Fits registry scope'.entity) (hraw : f.RawFree) (hs : own.Reaches scope)
    (hs' : other.Reaches scope') (hpath : scope.path = scope'.path) {c c' : Condition}
    (h : filter registry own now f scope.place = .ok c)
    (h' : filter registry other now f scope'.place = .ok c') :
    Condition.Widens (own.AddedBy other) (c.rename (own.aliasOver other)) c' := by
  refine resolved_induct (P := fun s' f c' => ∀ s c, own.Reaches s → other.Reaches s' →
    s.path = s'.path → filter registry own now f s.place = .ok c →
    Condition.Widens (own.AddedBy other) (c.rename (own.aliasOver other)) c') hother hplain
    ?field ?all ?any ?not ?entity ?quantified ?size ?raw (hf.obeys hraw) hs' rfl h' scope c hs hs'
    hpath h
  case field =>
    intro s' t c' _ _ hc' s c hs hs' hpath hc
    obtain ⟨hentity, -⟩ := hown.scope_agrees hother hplain hroot hs hs' hpath
    have halias := hown.aliasOver_scope hother hs hs' hpath
    have htest : fieldTest registry now t s'.place =
        (fieldTest registry now t s.place).map (Condition.rename (own.aliasOver other)) :=
      fieldTest_rename hentity halias t
    rw [filter] at hc
    rw [htest, hc] at hc'
    obtain rfl := Except.ok.inj hc'
    exact .same _
  case all =>
    intro s' fs cs' hcs' s c hs hs' hpath hc
    obtain ⟨cs, hcs, hc⟩ := bind_eq_ok.1 hc
    obtain rfl := Except.ok.inj hc
    rw [Condition.rename_allOf]
    refine .allOf ?_
    rw [List.forall₂_map_left_iff]
    exact forall₂_of_forall₂ (filters_eq_ok.1 hcs) hcs' fun f c c' hc hc' => hc' s c hs hs' hpath hc
  case any =>
    intro s' fs cs' hcs' s c hs hs' hpath hc
    obtain ⟨cs, hcs, hc⟩ := bind_eq_ok.1 hc
    obtain rfl := Except.ok.inj hc
    rw [Condition.rename_anyOf]
    refine .anyOf ?_
    rw [List.forall₂_map_left_iff]
    exact forall₂_of_forall₂ (filters_eq_ok.1 hcs) hcs' fun f c c' hc hc' => hc' s c hs hs' hpath hc
  case not =>
    intro s' f c' hc' s c hs hs' hpath hc
    obtain ⟨inner, hinner, hc⟩ := bind_eq_ok.1 hc
    obtain rfl := Except.ok.inj hc
    exact .not (hc' s inner hs hs' hpath hinner)
  case entity =>
    intro s' ef tests' nested' related' all' any' negated' _ h₁' h₂' h₃' h₄' h₅' h₆' s c hs hs'
      hpath hc
    obtain ⟨-, tests, nested, related, all, any, negated, h₁, h₂, h₃, h₄, h₅, h₆, rfl⟩ :=
      entityFilter_eq_ok.1 hc
    rw [Condition.rename_allOf, rename_entityParts]
    refine .allOf (entityParts_widens ?_ ?_ ?_ ?_ ?_ ?_)
    all_goals rw [List.forall₂_map_left_iff]
    · exact forall₂_of_forall₂ h₁ h₁' fun t c c' hc hc' => hc' s c hs hs' hpath hc
    · refine forall₂_of_forall₂ h₂ h₂' ?_
      rintro ⟨name, f⟩ c c' ⟨j, inside, inner, hchild, hinner, rfl⟩
        ⟨k, hk, hfollows, inner', hinner', rfl⟩
      obtain ⟨hj, rfl, hjk, hrelation⟩ :=
        child_agrees hown hother hplain hroot hs hs' hpath hfollows hchild
      have hwidens := hinner' j.scope inner (JoinPlan.reaches_scope hj)
        (JoinPlan.reaches_scope hk) (congrArg some hjk) hinner
      rw [nestedCondition, nestedCondition, hrelation]
      split
      · exact .hasRow (hown.subquery_widens hother hplain hroot hcovers hj hk hjk hwidens)
      · exact hwidens
    · exact forall₂_of_forall₂ h₃ h₃' fun t c c' hc hc' => hc' s c hs hs' hpath hc
    · exact forall₂_of_forall₂ h₄ h₄' fun f c c' hc hc' => hc' s c hs hs' hpath hc
    · exact forall₂_of_forall₂ h₅ h₅' fun f c c' hc hc' => hc' s c hs hs' hpath hc
    · exact forall₂_of_forall₂ h₆ h₆' fun f c c' hc hc' => hc' s c hs hs' hpath hc
  case quantified =>
    intro s' name q f k inner' hk hfollows _ hinner' s c hs hs' hpath hc
    simp only [filter, relatedTest, bind_eq_ok] at hc
    obtain ⟨⟨j, inside⟩, hcollection, inner, hinner, hc⟩ := hc
    obtain rfl := Except.ok.inj hc
    obtain ⟨hj, rfl, hjk, -⟩ := child_agrees hown hother hplain hroot hs hs' hpath hfollows
      (collection_eq_ok.1 hcollection).1
    have hwidens := hinner' j.scope inner (JoinPlan.reaches_scope hj)
      (JoinPlan.reaches_scope hk) (congrArg some hjk) hinner
    cases q with
    | any => exact .hasRow (hown.subquery_widens hother hplain hroot hcovers hj hk hjk hwidens)
    | all =>
      exact .hasRow (hown.subquery_widens hother hplain hroot hcovers hj hk hjk (.notTrue hwidens))
    | none => exact .hasRow (hown.subquery_widens hother hplain hroot hcovers hj hk hjk hwidens)
  case size =>
    intro s' name op n k hk hfollows _ _ s c hs hs' hpath hc
    simp only [filter, relatedTest, bind_eq_ok, sized_eq_ok] at hc
    obtain ⟨⟨j, inside⟩, hcollection, -, rfl⟩ := hc
    obtain ⟨hj, rfl, hjk, -⟩ := child_agrees hown hother hplain hroot hs hs' hpath hfollows
      (collection_eq_ok.1 hcollection).1
    exact .rowCount
      (hown.subquery_widens hother hplain hroot hcovers hj hk hjk (.same Condition.always))
  case raw =>
    intro s' sql values c' hfalse
    exact hfalse.elim

end

end Resolution

end FilterQuery
