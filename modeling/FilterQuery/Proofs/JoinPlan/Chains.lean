import FilterQuery.Proofs.JoinPlan.Growth
import FilterQuery.Proofs.Schema.Catalog

/-!
# Plans as pictures of chains

The path of a join spells a chain of relations that starts at the root. `Registry.along?` follows
such a chain through a registry, without any plan. A plan depicts its chains
(`JoinPlan.Depicts`) when every join hangs on the join of the chain before its last relation, is
what the registry declares for this relation, and is written inside the last collection on its
chain. Every plan of a filter does so (`ofFilter_depicts`): `LeadsTo` is what planning keeps of each
place that it reaches, and `Planned.depicted` goes through the joins in their order.
-/

namespace FilterQuery

/-- The relations that a chain of names follows from an entity, when each of them is declared. -/
def Registry.along? (r : Registry) (code : String) : List String → Option (List Relation)
  | [] => some []
  | name :: names => do
    let relation ← r.relation? code name
    let rest ← r.along? relation.target names
    some (relation :: rest)

namespace JoinPlan

/-! ## Chains -/

/-- The names of the relations that a path spells. -/
def segments (path : String) : List String :=
  (path.toList.splitOn '.').map String.ofList

/-- The path that a chain of names spells, unless the chain is empty and stays at the root. -/
def spelled : List String → Option String
  | [] => none
  | names => some (".".intercalate names)

/-- The entity that a chain of relations from an entity leads to. -/
def endOf : String → List Relation → String
  | code, [] => code
  | _, relation :: relations => endOf relation.target relations

/-- A path is the longest beginning of a chain that ends in a relation to many rows. -/
def EndsLastCollection (names : List String) (relations : List Relation) (path : String) : Prop :=
  ∃ n relation, relations[n]? = some relation ∧ relation.isMany = true ∧
    path = ".".intercalate (names.take (n + 1)) ∧
    ∀ m later, n < m → relations[m]? = some later → later.isMany = false

/-- The path of the last collection on a chain, if there is one. -/
def IsAnchor (names : List String) (relations : List Relation) : Option String → Prop
  | none => ∀ relation ∈ relations, relation.isMany = false
  | some path => EndsLastCollection names relations path

variable {registry : Registry} {plan : JoinPlan} {scope : PlanScope} {j : PlannedJoin}
  {names : List String} {relations : List Relation} {relation : Relation} {code name : String}

theorem intercalate_concat (hnames : names ≠ []) (name : String) :
    ".".intercalate (names ++ [name]) = ".".intercalate names ++ "." ++ name := by
  induction names with
  | nil => exact absurd rfl hnames
  | cons first rest ih =>
    cases rest with
    | nil => simp
    | cons second rest =>
      have hrest := ih (List.cons_ne_nil second rest)
      rw [List.cons_append] at hrest
      rw [List.cons_append, List.cons_append, String.intercalate_cons_cons, hrest,
        String.intercalate_cons_cons]
      simp only [String.append_assoc]

theorem spelled_concat (names : List String) (name : String) :
    spelled (names ++ [name]) = some (".".intercalate (names ++ [name])) := by
  cases names <;> rfl

/-- One more relation at the end of a chain. -/
theorem childPath_spelled (names : List String) (name : String) :
    childPath (spelled names) name = ".".intercalate (names ++ [name]) := by
  cases names with
  | nil => simp [spelled, childPath]
  | cons first rest =>
    rw [spelled, childPath, intercalate_concat (List.cons_ne_nil first rest)]
    simp

/-- Names without points are read back from the path that they spell. -/
theorem segments_intercalate (hne : names ≠ []) (hplain : ∀ n ∈ names, '.' ∉ n.toList) :
    segments (".".intercalate names) = names := by
  have hpoint : ".".toList = ['.'] := rfl
  have hsplit : (['.'].intercalate (names.map String.toList)).splitOn '.' =
      names.map String.toList := by
    apply List.splitOn_intercalate
    · intro l hl
      obtain ⟨n, hn, rfl⟩ := List.mem_map.1 hl
      exact hplain n hn
    · simpa using hne
  rw [segments, String.toList_intercalate, hpoint, hsplit, List.map_map]
  have hid : String.ofList ∘ String.toList = id := by
    funext s
    exact String.ofList_toList
  rw [hid, List.map_id]

theorem along?_concat (h : registry.along? code names = some relations)
    (hrel : registry.relation? (endOf code relations) name = some relation) :
    registry.along? code (names ++ [name]) = some (relations ++ [relation]) := by
  induction names generalizing code relations with
  | nil =>
    obtain rfl := Option.some.inj h
    have hfirst : registry.relation? code name = some relation := hrel
    simp [Registry.along?, hfirst]
  | cons first rest ih =>
    simp only [Registry.along?, Option.bind_eq_bind, Option.bind_eq_some_iff] at h
    obtain ⟨r, hr, rs, hrs, h⟩ := h
    obtain rfl := Option.some.inj h
    have hrest := ih hrs hrel
    simp [Registry.along?, hr, hrest]

theorem length_of_along? (h : registry.along? code names = some relations) :
    names.length = relations.length := by
  induction names generalizing code relations with
  | nil =>
    obtain rfl := Option.some.inj h
    rfl
  | cons first rest ih =>
    simp only [Registry.along?, Option.bind_eq_bind, Option.bind_eq_some_iff] at h
    obtain ⟨r, hr, rs, hrs, h⟩ := h
    obtain rfl := Option.some.inj h
    rw [List.length_cons, List.length_cons, ih hrs]

theorem endOf_concat (code : String) (relations : List Relation) (relation : Relation) :
    endOf code (relations ++ [relation]) = relation.target := by
  induction relations generalizing code with
  | nil => rfl
  | cons r rs ih => exact ih r.target

/-- A chain ends with its last collection when its last relation leads to many rows. -/
theorem endsLastCollection_concat (hlength : names.length = relations.length) (name : String)
    (hmany : relation.isMany = true) :
    EndsLastCollection (names ++ [name]) (relations ++ [relation])
      (".".intercalate (names ++ [name])) := by
  refine ⟨relations.length, relation, List.getElem?_concat_length, hmany, ?_, ?_⟩
  · rw [List.take_of_length_le]
    simp [hlength]
  · intro m later hm hlater
    have hnone : (relations ++ [relation])[m]? = none := by
      apply List.getElem?_eq_none
      rw [List.length_append, List.length_singleton]
      omega
    rw [hnone] at hlater
    cases hlater

/-- The last collection of a chain stays the last one before a relation to one row. -/
theorem EndsLastCollection.concat {path : String} (h : EndsLastCollection names relations path)
    (hlength : names.length = relations.length) (name : String) (hone : relation.isMany = false) :
    EndsLastCollection (names ++ [name]) (relations ++ [relation]) path := by
  obtain ⟨n, r, hr, hmany, hpath, hlater⟩ := h
  have hn : n < relations.length := (List.getElem?_eq_some_iff.1 hr).1
  refine ⟨n, r, ?_, hmany, ?_, ?_⟩
  · rw [List.getElem?_append_left hn, hr]
  · rw [hpath, List.take_append_of_le_length]
    omega
  · intro m later hm hmem
    by_cases hold : m < relations.length
    · rw [List.getElem?_append_left hold] at hmem
      exact hlater m later hm hmem
    · rw [List.getElem?_append_right (by omega)] at hmem
      have hlast := List.mem_of_getElem? hmem
      rwa [List.mem_singleton.1 hlast]

/-- The last collection on a chain with one more relation is that relation or the one before. -/
theorem IsAnchor.concat {anchor : Option String} (h : IsAnchor names relations anchor)
    (hlength : names.length = relations.length) (name : String) (relation : Relation) :
    IsAnchor (names ++ [name]) (relations ++ [relation])
      (if relation.isMany then some (".".intercalate (names ++ [name])) else anchor) := by
  cases hmany : relation.isMany with
  | true => exact endsLastCollection_concat hlength name hmany
  | false =>
    cases anchor with
    | none =>
      intro r hr
      rcases List.mem_append.1 hr with hr | hr
      · exact h r hr
      · rwa [List.mem_singleton.1 hr]
    | some path => exact EndsLastCollection.concat h hlength name hmany

/-! ## Places -/

/-- A chain of relations leads from the root of a plan to a place. -/
structure LeadsTo (registry : Registry) (root : String) (names : List String)
    (relations : List Relation) (scope : PlanScope) : Prop where
  along : registry.along? root names = some relations
  plain : ∀ n ∈ names, '.' ∉ n.toList
  path : scope.path = spelled names
  entity : scope.entity = endOf root relations
  anchor : IsAnchor names relations scope.anchor

theorem leadsTo_root (registry : Registry) (plan : JoinPlan) :
    LeadsTo registry plan.root [] [] plan.rootScope where
  along := rfl
  plain := by simp
  path := rfl
  entity := rfl
  anchor := by simp [IsAnchor, rootScope]

/-- Following a relation from a place extends the chain that leads to the place. -/
theorem LeadsTo.follow {root : String} (h : LeadsTo registry root names relations scope)
    (hplain : registry.PlainRelations) (hj : Follows registry scope name j) :
    LeadsTo registry root (names ++ [name]) (relations ++ [j.relation]) j.scope ∧
      j.path = ".".intercalate (names ++ [name]) := by
  have hpath : j.path = ".".intercalate (names ++ [name]) := by
    rw [hj.path, h.path, childPath_spelled]
  refine ⟨⟨?_, ?_, ?_, ?_, ?_⟩, hpath⟩
  · exact along?_concat h.along (h.entity ▸ hj.relation)
  · intro n hn
    rcases List.mem_append.1 hn with hn | hn
    · exact h.plain n hn
    · rw [List.mem_singleton.1 hn]
      exact hplain _ _ _ hj.relation
  · rw [PlannedJoin.scope, hpath, spelled_concat]
  · rw [endOf_concat]
    rfl
  · rw [hj.scope_eq, hpath]
    exact h.anchor.concat (length_of_along? h.along) name j.relation

/-- A chain of relations leads to every place that a plan reaches. -/
theorem Planned.leadsTo (h : Planned registry plan) (hplain : registry.PlainRelations)
    (hs : plan.Reaches scope) :
    ∃ names relations, LeadsTo registry plan.root names relations scope := by
  induction h generalizing scope with
  | start hroot =>
    rcases hs with rfl | ⟨j, hj, -⟩
    · exact ⟨[], [], leadsTo_root registry _⟩
    · simp [JoinPlan.start] at hj
  | @push plan k s n hplan hreach hk _ _ ih =>
    rcases hs with rfl | ⟨j, hj, rfl⟩
    · exact ⟨[], [], leadsTo_root registry _⟩
    · rcases List.mem_append.1 hj with hj | hj
      · exact ih (reaches_scope hj)
      · rw [List.mem_singleton.1 hj]
        obtain ⟨names, relations, hleads⟩ := ih hreach
        exact ⟨_, _, (hleads.follow hplain hk).1⟩

/-! ## Joins -/

/-- The join with a number, counted from zero, is what the chain that its path spells says. -/
structure Depicted (registry : Registry) (plan : JoinPlan) (i : Nat) (j : PlannedJoin) : Prop where
  /-- Its alias carries the next number. -/
  aliasName : j.aliasName = s!"t{i + 1}"
  /-- A single relation hangs on the root. -/
  single : '.' ∉ j.path.toList → j.parent = rootAlias ∧ j.source = plan.root
  /-- Any other relation hangs on an earlier join, that of the path before it. -/
  below : ∀ q r, j.path = q ++ "." ++ r → '.' ∉ r.toList →
    ∃ k before, k < i ∧ plan.joins[k]? = some before ∧ before.path = q ∧
      j.parent = before.aliasName ∧ j.source = before.target
  /-- Its relation is declared by its source under the last name of its path. -/
  relation : ∃ name, (segments j.path).getLast? = some name ∧
    registry.relation? j.source name = some j.relation
  /-- Its table is that of its target. -/
  table : ∃ target, registry.find? j.target = some target ∧ j.table = target.table
  /-- It is written outside when no relation on its chain leads to many rows, and otherwise inside
  the last one that does. -/
  placement : ∃ relations, registry.along? plan.root (segments j.path) = some relations ∧
    (j.placement = .outer ↔ ∀ relation ∈ relations, relation.isMany = false) ∧
    ∀ anchor, j.placement = .inside anchor →
      EndsLastCollection (segments j.path) relations anchor

/-- A plan with a join for each of its chains of relations, in an order in which the beginning of a
chain comes before the chain. -/
structure Depicts (registry : Registry) (root : String) (plan : JoinPlan) : Prop where
  root : plan.root = root
  joins : ∀ i j, plan.joins[i]? = some j → Depicted registry plan i j
  paths_nodup : (plan.joins.map (·.path)).Nodup
  find?_eq_some_iff : ∀ path j, plan.find? path = some j ↔ j ∈ plan.joins ∧ j.path = path

/-- What is said of a join refers to the root and to earlier joins only. -/
theorem Depicted.mono {plan' : JoinPlan} {i : Nat} (h : Depicted registry plan i j)
    (hstage : plan.IsStageOf plan') : Depicted registry plan' i j where
  aliasName := h.aliasName
  single := hstage.1 ▸ h.single
  below := by
    intro q r hpath hr
    obtain ⟨k, before, hk, hbefore, hrest⟩ := h.below q r hpath hr
    obtain ⟨later, hlater⟩ := hstage.2
    refine ⟨k, before, hk, ?_, hrest⟩
    rw [← hlater, List.getElem?_append_left (List.getElem?_eq_some_iff.1 hbefore).1, hbefore]
  relation := h.relation
  table := h.table
  placement := hstage.1 ▸ h.placement

theorem IsAnchor.placementOf {anchor : Option String} (h : IsAnchor names relations anchor) :
    (JoinPlan.placementOf anchor = .outer ↔ ∀ relation ∈ relations, relation.isMany = false) ∧
      ∀ path, JoinPlan.placementOf anchor = .inside path →
        EndsLastCollection names relations path := by
  cases anchor with
  | none => exact ⟨⟨fun _ => h, fun _ => rfl⟩, nofun⟩
  | some path =>
    have ⟨n, r, hr, hmany, _⟩ := h
    refine ⟨⟨nofun, fun hone => ?_⟩, ?_⟩
    · rw [hone r (List.mem_of_getElem? hr)] at hmany
      cases hmany
    · intro other hother
      obtain rfl : path = other := by simpa [JoinPlan.placementOf] using hother
      exact h

/-- A join that is planned next is depicted. -/
theorem Planned.depicted_push (h : Planned registry plan) (hplain : registry.PlainRelations)
    (hs : plan.Reaches scope) (hj : Follows registry scope name j)
    (halias : j.aliasName = plan.nextAlias) :
    Depicted registry (plan.push j) plan.joins.length j := by
  have hname : '.' ∉ name.toList := hplain _ _ _ hj.relation
  obtain ⟨names, relations, hleads⟩ := h.leadsTo hplain hs
  obtain ⟨hchain, hpath⟩ := hleads.follow hplain hj
  have hsegments : segments j.path = names ++ [name] := by
    rw [hpath, segments_intercalate (by simp) hchain.plain]
  refine ⟨halias, ?_, ?_, ⟨name, ?_, ?_⟩, hj.table, relations ++ [j.relation], ?_, ?_⟩
  · -- a path without a point starts at the root
    intro hpoint
    rcases hs with rfl | ⟨k, -, rfl⟩
    · exact ⟨hj.parent, hj.source⟩
    · rw [hj.path, PlannedJoin.scope, toList_childPath_some] at hpoint
      simp at hpoint
  · intro q r hq hr
    have hboth : childPath (some q) r = childPath scope.path name := by
      rw [← hj.path, hq, childPath]
    obtain ⟨hscope, -⟩ := childPath_inj hr hname hboth
    rcases hs with rfl | ⟨k, hk, rfl⟩
    · cases hscope
    · obtain ⟨i, hi⟩ := List.mem_iff_getElem?.1 hk
      have hlt : i < plan.joins.length := (List.getElem?_eq_some_iff.1 hi).1
      refine ⟨i, k, hlt, ?_, (Option.some.inj hscope).symm, hj.parent, hj.source⟩
      rw [JoinPlan.push, List.getElem?_append_left hlt, hi]
  · rw [hsegments, List.getLast?_concat]
  · rw [hj.source]
    exact hj.relation
  · rw [hsegments]
    exact hchain.along
  · rw [hsegments]
    have hanchor := hchain.anchor.placementOf
    rwa [PlannedJoin.scope, placementOf_anchor?] at hanchor

/-- Every join of a plan is depicted. -/
theorem Planned.depicted (h : Planned registry plan) (hplain : registry.PlainRelations) :
    ∀ i j, plan.joins[i]? = some j → Depicted registry plan i j := by
  induction h with
  | start hroot => simp [JoinPlan.start]
  | @push plan k s n hplan hs hk halias _ ih =>
    intro i j hi
    by_cases hold : i < plan.joins.length
    · rw [JoinPlan.push, List.getElem?_append_left hold] at hi
      exact (ih i j hi).mono (isStageOf_push plan k)
    · have hlt : i < (plan.push k).joins.length := (List.getElem?_eq_some_iff.1 hi).1
      have hlast : i = plan.joins.length := by
        simp only [JoinPlan.push, List.length_append, List.length_singleton] at hlt
        omega
      subst hlast
      obtain rfl : k = j := by
        rw [JoinPlan.push, List.getElem?_concat_length] at hi
        exact Option.some.inj hi
      exact hplan.depicted_push hplain hs hk halias

/-- The plan of a filter is a faithful picture of the chains of relations that the filter follows:
when no relation has a point in its name, every join is numbered in its order, paths find their
joins, and each join hangs on the join before it on its chain, is what the registry declares, and
is written inside the last collection on its chain. -/
theorem ofFilter_depicts (hplain : registry.PlainRelations) {root : String} {f : Filter}
    (h : ofFilter registry root f = .ok plan) : plan.Depicts registry root := by
  obtain ⟨hplan, hroot, -, -⟩ := ofFilter_spec hplain h
  refine ⟨hroot, hplan.depicted hplain, hplan.paths_nodup, ?_⟩
  intro path j
  constructor
  · exact mem_of_find?
  · rintro ⟨hj, rfl⟩
    exact hplan.find?_eq_some hj

theorem ofFilter_depicts_rareDecks :
    Catalog.registry.PlainRelations ∧
      ∃ plan, ofFilter Catalog.registry "deck" Catalog.rareDecks = .ok plan ∧
        plan.Depicts Catalog.registry "deck" := by
  have hplain := Catalog.plainRelations_registry
  obtain ⟨plan, hplan⟩ : ∃ plan,
      ofFilter Catalog.registry "deck" Catalog.rareDecks = .ok plan := ⟨_, rfl⟩
  exact ⟨hplain, plan, hplan, ofFilter_depicts hplain hplan⟩

end JoinPlan

end FilterQuery
