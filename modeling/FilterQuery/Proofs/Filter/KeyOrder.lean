import FilterQuery.Proofs.Condition.Discovery
import FilterQuery.Proofs.Filter.Choosing
import FilterQuery.Proofs.Filter.Rearrangement
import FilterQuery.Proofs.Filter.Reordering
import FilterQuery.Proofs.Filter.Respelling
import FilterQuery.Proofs.Filter.Typed
import FilterQuery.Proofs.JoinPlan.Correspondence

/-!
# The order of keys decides nothing

Reading goes through the members of an object in their order, counts conditions on its way and stops
at the first fault, and detection gathers keys in the same way. All the same, whether a document is
accepted does not depend on the order of its keys: the grammar and the extent decide
(`Filter.accepted_of_reordered`). Member by member, two reordered documents are read as entries that
are the same up to the order of conjuncts, so that they are read as such filters
(`FilterDocument.readFilter_rearranged`), which have the same joins; and detection answers alike
(`Registry.detect_reordered`).
-/

namespace FilterQuery

/-- What a piecewise reader reads of reordered objects is matched when it is so for each member. -/
theorem Piecewise.matched {β : Type} {limits : FilterLimits} {levels : Nat}
    {reader : List (String × Json) → Nat → Except FilterError (List β × Nat)}
    (hreader : Piecewise limits levels reader) {R : String × Json → String × Json → Prop}
    {T : β → β → Prop} {ms ms' : List (String × Json)} (h : Matched R ms ms')
    (hstep : ∀ m m' p q, R m m' → reader [m] 0 = .ok p → reader [m'] 0 = .ok q → Matched T p.1 q.1)
    {p q : List β × Nat} (hp : reader ms 0 = .ok p) (hq : reader ms' 0 = .ok q) :
    Matched T p.1 q.1 := by
  obtain ⟨pieces, hpieces, hflatten⟩ := hreader.pieces (Nat.zero_le _) hp
  obtain ⟨pieces', hpieces', hflatten'⟩ := hreader.pieces (Nat.zero_le _) hq
  rw [← hflatten, ← hflatten']
  refine (h.of_images hpieces hpieces' fun m m' piece piece' hm hpiece hpiece' => ?_).flatten
  obtain ⟨n, hpiece⟩ := hpiece
  obtain ⟨n', hpiece'⟩ := hpiece'
  exact hstep m m' _ _ hm hpiece hpiece'

namespace FilterDocument

open Json

variable {registry : Registry} {limits : FilterLimits} {levels : Nat} {entity target : Entity}
  {name key : String} {v w : Json} {members members' : List (String × Json)}

/-! ## Fields -/

/-- The operators of a field are read as the same tests. -/
theorem readTests_perm {kind : ValueKind} (h : Matched ReorderedMember members members')
    {p q : List FieldTest × Nat} (hp : readTests limits name kind members 0 = .ok p)
    (hq : readTests limits name kind members' 0 = .ok q) : p.1.Perm q.1 := by
  refine matched_eq.1 ((readTests_piecewise 0 name kind).matched h ?_ hp hq)
  rintro ⟨key, j⟩ ⟨key', j'⟩ p q ⟨hinside⟩ hp hq
  -- the operand is one of the operator, so that there is nothing in it to reorder
  have haccepts : Accepts limits 0 (∀ m ∈ [(key, j)], ValidTest kind m.1 m.2) 0 _ 0
      (readTests limits name kind [(key, j)] 0) := readTests_accepts name kind [(key, j)] 0
  obtain ⟨op, -, -, hoperand⟩ := List.forall_mem_singleton.1 (haccepts.sound p hp).1
  obtain rfl : j = j' := hoperand.eq_of_reordered hinside
  cases hp.symm.trans hq
  exact matched_eq.2 (.refl _)

theorem readField_eq_ok {field : Field} {json : Json} {count : Nat} {p : List FieldTest × Nat}
    (h : readField limits name field json count = .ok p) :
    ∃ members, json = .object members ∧ readTests limits name field.kind members count = .ok p := by
  unfold readField at h
  split at h
  · exact ⟨_, rfl, h⟩
  · cases h

/-! ## Readers of the filters inside -/

/-- A reader that reads reordered documents as filters that are the same up to the order of
conjuncts. -/
def Rearranges (read : PartReader Filter) : Prop :=
  ∀ v w p q, v.Reordered w → read v 0 = .ok p → read w 0 = .ok q → p.1.Rearranged q.1

section

variable {read : PartReader Filter} (hread : Rearranges read)
  (hbounded : BoundedFilters registry limits levels target read read)

include hread hbounded

theorem readList_rearranged {word : String} (h : v.Reordered w) {p q : List Filter × Nat}
    (hp : readList read word v 0 = .ok p) (hq : readList read word w 0 = .ok q) :
    List.Forall₂ Filter.Rearranged p.1 q.1 := by
  cases v with
  | array items =>
    obtain ⟨items', rfl, hitems⟩ := h.exists_items
    have hfirst := readItems_pieces hbounded (Nat.zero_le _) hp
    have hsecond := readItems_pieces hbounded (Nat.zero_le _) hq
    refine forall₂_of_images hitems hfirst hsecond ?_
    rintro j j' f g hinside ⟨n, hj⟩ ⟨n', hj'⟩
    exact hread j j' _ _ hinside hj hj'
  | _ => cases hp

omit hbounded in
/-- What a keyword asks of a collection is read as the same test. -/
theorem readKeyword_rearranged {keyword : CollectionKeyword} (h : v.Reordered w)
    {p q : RelatedTest × Nat} (hp : readKeyword read name key keyword v 0 = .ok p)
    (hq : readKeyword read name key keyword w 0 = .ok q) :
    (Filter.related p.1).Rearranged (.related q.1) := by
  cases keyword with
  | quantifier quantifier =>
    obtain ⟨f, hf, rfl⟩ := readKeyword_quantifier hp
    obtain ⟨g, hg, rfl⟩ := readKeyword_quantifier hq
    exact .quantified (hread v w f g h hf hg)
  | emptiness empty =>
    cases v with
    | bool flag =>
      cases h
      obtain rfl := Except.ok.inj (hp.symm.trans hq)
      obtain rfl := Except.ok.inj hp
      exact .size _ _ _
    | _ => cases hp
  | size op =>
    cases v with
    | integer n =>
      cases h
      obtain rfl := Except.ok.inj (hp.symm.trans hq)
      rw [readKeyword] at hp
      split at hp
      · obtain rfl := Except.ok.inj hp
        exact .size _ _ _
      · cases hp
    | _ => cases hp

theorem readKeywords_rearranged (h : Matched ReorderedMember members members')
    {p q : List RelatedTest × Nat} (hp : readKeywords limits read name members 0 = .ok p)
    (hq : readKeywords limits read name members' 0 = .ok q) :
    Matched (fun t t' => (Filter.related t).Rearranged (.related t')) p.1 q.1 := by
  refine (readKeywords_piecewise hbounded name).matched h ?_ hp hq
  rintro ⟨key, j⟩ ⟨key', j'⟩ p q ⟨hinside⟩ hp hq
  cases hkeyword : CollectionKeyword.ofName? key with
  | none =>
    simp only [readKeywords, hkeyword] at hp hq
    cases hp
    cases hq
    exact .nil
  | some keyword =>
    obtain ⟨t, ht, hp⟩ := readKeywords_single hkeyword hp
    obtain ⟨t', ht', hq⟩ := readKeywords_single hkeyword hq
    rw [hp, hq]
    exact .of_forall₂ (.cons (readKeyword_rearranged hread hinside ht ht') .nil)

end

/-! ## Entries -/

section

variable {read : Entity → PartReader Filter} (hread : ∀ target, Rearranges (read target))
  (hbounded : ∀ target, BoundedFilters registry limits levels target (read target) (read target))

include hread hbounded

theorem readRelation_rearranged {relation : Relation} (h : v.Reordered w)
    {p q : RelationPart × Nat} (hp : readRelation registry limits read name relation v 0 = .ok p)
    (hq : readRelation registry limits read name relation w 0 = .ok q) :
    (Entry.relation name p.1).Rearranged (.relation name q.1) := by
  cases v with
  | object members =>
    obtain ⟨members', rfl, hdistinct, hmembers⟩ := h.exists_members
    by_cases hkeyword : ∃ m ∈ members, isCollectionKeyword m.1 = true
    · have hkeyword' :=
        (exists_key_iff hmembers fun key => isCollectionKeyword key = true).1 hkeyword
      obtain ⟨target, htarget, -, -, ts, hts, rfl⟩ := (readRelation_keywords hkeyword).1 hp
      obtain ⟨target', htarget', -, -, ts', hts', rfl⟩ := (readRelation_keywords hkeyword').1 hq
      cases htarget.symm.trans htarget'
      exact .related (readKeywords_rearranged (hread target) (hbounded target) hmembers hts hts')
    · have hnone : ∀ m ∈ members, isCollectionKeyword m.1 = false := by simpa using hkeyword
      have hnone' := (forall_key_iff hmembers fun key => isCollectionKeyword key = false).1 hnone
      obtain ⟨target, htarget, f, hf, rfl⟩ := readRelation_noKeyword hnone hp
      obtain ⟨target', htarget', g, hg, rfl⟩ := readRelation_noKeyword hnone' hq
      cases htarget.symm.trans htarget'
      exact .nested (hread target _ _ f g h hf hg)
  | _ => cases hp

/-- A member is read as the same entry up to the order of conjuncts. -/
theorem readEntry_rearranged (h : v.Reordered w) {p q : Entry × Nat}
    (hp : readEntry registry limits read entity key v 0 = .ok p)
    (hq : readEntry registry limits read entity key w 0 = .ok q) : p.1.Rearranged q.1 := by
  by_cases hlist : key = andWord ∨ key = orWord
  · obtain ⟨fs, hfs, hp⟩ := readEntry_list hlist hp
    obtain ⟨gs, hgs, hq⟩ := readEntry_list hlist hq
    have hitems := readList_rearranged (hread entity) (hbounded entity) h hfs hgs
    rw [hp, hq]
    split
    · exact .all hitems
    · exact .any hitems
  by_cases hnot : key = notWord
  · subst hnot
    obtain ⟨f, hf, hp⟩ := readEntry_negation hp
    obtain ⟨g, hg, hq⟩ := readEntry_negation hq
    rw [hp, hq]
    exact .negated (hread entity v w f g h hf hg)
  have hword : isLogicalWord key = false := by simpa [isLogicalWord, hnot] using hlist
  cases hrelation : entity.relation? key with
  | some relation =>
    rw [readEntry_relation hword hrelation] at hp hq
    obtain ⟨part, hpart, rfl⟩ := map_eq_ok.1 hp
    obtain ⟨part', hpart', rfl⟩ := map_eq_ok.1 hq
    exact readRelation_rearranged hread hbounded h hpart hpart'
  | none =>
    obtain ⟨hand, hor⟩ := not_or.1 hlist
    simp only [readEntry, if_neg hand, if_neg hor, if_neg hnot, hrelation] at hp hq
    cases hfield : entity.field? key with
    | none =>
      rw [hfield] at hp
      cases hp
    | some field =>
      rw [hfield] at hp hq
      obtain ⟨ts, hts, rfl⟩ := map_eq_ok.1 hp
      obtain ⟨ts', hts', rfl⟩ := map_eq_ok.1 hq
      obtain ⟨members, rfl, htests⟩ := readField_eq_ok hts
      obtain ⟨members', rfl, htests'⟩ := readField_eq_ok hts'
      obtain ⟨_, ⟨⟩, -, hmembers⟩ := h.exists_members
      exact .fields (readTests_perm hmembers htests htests')

end

/-! ## Documents -/

theorem isCombination_eq (h : Matched ReorderedMember members members') :
    isCombination members = isCombination members' := by
  have hwords : (members.all fun m => isLogicalWord m.1) =
      members'.all fun m => isLogicalWord m.1 := by
    rw [Bool.eq_iff_iff, List.all_eq_true, List.all_eq_true]
    exact forall_key_iff h fun key => isLogicalWord key = true
  have hempty : members.isEmpty = members'.isEmpty := by
    rw [Bool.eq_iff_iff, List.isEmpty_iff_length_eq_zero, List.isEmpty_iff_length_eq_zero,
      h.length_eq]
  rw [isCombination, isCombination, hwords, hempty]

/-- However many levels are left, reordered documents are read as filters that are the same up to
the order of conjuncts. -/
theorem readFilter_rearranged (registry : Registry) (limits : FilterLimits) (levels : Nat)
    (entity : Entity) : Rearranges (readFilter registry limits levels entity) := by
  induction levels generalizing entity with
  | zero =>
    intro v w p q _ hp
    cases hp
  | succ levels ih =>
    intro v w p q h hp hq
    cases v with
    | object members =>
      obtain ⟨members', rfl, hdistinct, hmembers⟩ := h.exists_members
      obtain ⟨entries, hwhole, hentries⟩ := readFilter_members hp
      obtain ⟨entries', hwhole', hentries'⟩ := readFilter_members hq
      rw [hwhole, hwhole']
      refine assemble_rearranged ?_ ?_ ((keys_perm hmembers).nodup_iff.1 hdistinct)
        (isCombination_eq hmembers) entity.code
      · refine hmembers.of_images hentries hentries' ?_
        rintro ⟨key, j⟩ ⟨_, j'⟩ entry entry' ⟨hinside⟩ ⟨n, hn⟩ ⟨n', hn'⟩
        exact readEntry_rearranged ih (readFilter_bounded registry limits limits levels levels)
          hinside hn hn'
      · exact hentries'.imp fun m entry ⟨n, hn⟩ => readEntry_from hn
    | _ => cases hp

end FilterDocument

/-! ## Acceptance -/

namespace Filter

variable {registry : Registry} {limits : FilterLimits} {code : String} {entity : Entity}
  {v w : Json} {f g : Filter}

/-- A document that is read keeps to the limits. -/
theorem within_of_ofJson (hentity : registry.find? code = some entity)
    (hf : ofJson registry limits (some code) v = .ok f) :
    (v.extent registry entity).Within limits limits.maxDepth 0 := by
  obtain ⟨p, hp, -⟩ := (ofJson_eq_ok hentity).1 hf
  have hbounded := FilterDocument.readFilter_bounded registry limits limits (limits.maxDepth + 1)
    (limits.maxDepth + 1) entity v 0 0
  have hroom := hbounded.room hp hp (Nat.zero_le _)
  exact ⟨Nat.le_of_succ_le_succ hroom.1, hroom.2⟩

/-- A document that is accepted is also accepted in another order, with as many conditions. -/
theorem accepted_of_reordered (hentity : registry.find? code = some entity) (h : v.Reordered w)
    (hf : ofJson registry limits (some code) v = .ok f) :
    ∃ g, ofJson registry limits (some code) w = .ok g ∧ f.conditionCount = g.conditionCount := by
  -- it is as valid, so that it is read where there is room, and it asks for no more room
  have hvalid : ValidFilter registry entity w := (valid_of_ofJson hentity hf).reordered h
  have hextent := h.extent_eq registry entity
  obtain ⟨g, hwide⟩ : ∃ g, ofJson registry ⟨0, w.depth, w.memberCount⟩ (some code) w = .ok g :=
    (ofJson_accepts_iff hentity (Nat.le_succ _) (Nat.le_refl _)).2 hvalid
  have hg := ofJson_of_within hentity hwide (hextent ▸ within_of_ofJson hentity hf)
  refine ⟨g, hg, ?_⟩
  rw [conditionCount_of_ofJson hentity hf, conditionCount_of_ofJson hentity hg, hextent]

/-- What a document is read as in another order is the same up to the order of conjuncts. -/
theorem rearranged_of_reordered (hentity : registry.find? code = some entity) (h : v.Reordered w)
    (hf : ofJson registry limits (some code) v = .ok f)
    (hg : ofJson registry limits (some code) w = .ok g) : f.Rearranged g := by
  obtain ⟨p, hp, rfl⟩ := (ofJson_eq_ok hentity).1 hf
  obtain ⟨q, hq, rfl⟩ := (ofJson_eq_ok hentity).1 hg
  exact FilterDocument.readFilter_rearranged registry limits _ entity v w p q h hp hq

end Filter

/-! ## Joins -/

namespace JoinPlan

variable {registry : Registry} {root : String} {f g : Filter} {plan plan' : JoinPlan}

/-- A join of a plan is written in the same place as that of another plan for its path. -/
theorem Planned.places_subset (hplan : Planned registry plan) (hplan' : Planned registry plan')
    (hplain : registry.PlainRelations) (hroot : plan.root = plan'.root)
    (hpaths : plan.joins.map (·.path) ⊆ plan'.joins.map (·.path)) :
    (plan.joins.map fun j => (j.path, j.placement)) ⊆
      plan'.joins.map fun j => (j.path, j.placement) := by
  intro place hplace
  obtain ⟨j, hj, rfl⟩ := List.mem_map.1 hplace
  obtain ⟨k, hk, hpath⟩ := List.mem_map.1 (hpaths (List.mem_map_of_mem hj))
  have hsame := (hplan.agrees hplan' hplain hroot hj hk hpath.symm).placement
  exact List.mem_map.2 ⟨k, hk, by rw [hpath, hsame]⟩

theorem Planned.places_nodup (hplan : Planned registry plan) :
    (plan.joins.map fun j => (j.path, j.placement)).Nodup := by
  refine List.Nodup.of_map Prod.fst ?_
  rw [List.map_map]
  exact hplan.paths_nodup

/-- Filters that are the same up to the order of conjuncts have joins for the same paths, written in
the same places. -/
theorem ofFilter_rearranged (hplain : registry.PlainRelations) (h : f.Rearranged g)
    (hf : ofFilter registry root f = .ok plan) (hg : ofFilter registry root g = .ok plan') :
    (plan.joins.map fun j => (j.path, j.placement)).Perm
      (plan'.joins.map fun j => (j.path, j.placement)) := by
  obtain ⟨hplan, hroot, -, -⟩ := ofFilter_spec hplain hf
  obtain ⟨hplan', hroot', -, -⟩ := ofFilter_spec hplain hg
  have hpaths (path : String) :
      path ∈ plan.joins.map (·.path) ↔ path ∈ plan'.joins.map (·.path) := by
    rw [ofFilter_paths hf, ofFilter_paths hg, List.mem_eraseDups, List.mem_eraseDups]
    exact (h.followed_perm none).mem_iff
  rw [List.perm_ext_iff_of_nodup hplan.places_nodup hplan'.places_nodup]
  refine fun place => ⟨fun hplace => ?_, fun hplace => ?_⟩
  · exact hplan.places_subset hplan' hplain (hroot.trans hroot'.symm)
      (fun path => (hpaths path).1) hplace
  · exact hplan'.places_subset hplan hplain (hroot'.trans hroot.symm)
      (fun path => (hpaths path).2) hplace

end JoinPlan

/-! ## Detection -/

/-- Detection finds the same entity or the same candidates. -/
theorem Registry.detect_reordered (registry : Registry) {v w : Json} (h : v.Reordered w)
    (limits : FilterLimits) :
    (∀ code, registry.detect limits v = .ok code ↔ registry.detect limits w = .ok code) ∧
      ∀ codes, registry.detect limits v = .error (.ambiguousEntity codes) ↔
        registry.detect limits w = .error (.ambiguousEntity codes) := by
  by_cases hshape : v.Shaped (limits.maxDepth + 1)
  · have hkeys (key : String) : key ∈ v.keys.eraseDups ↔ key ∈ w.keys.eraseDups := by
      rw [List.mem_eraseDups, List.mem_eraseDups, Json.mem_keys, Json.mem_keys]
      exact ⟨fun hkey => hkey.reordered h, fun hkey => hkey.reordered h.symm⟩
    have hcandidates := Detection.candidates_congr hkeys registry.toList
    rw [Filter.detect_eq_choose (Detection.keysOf_eq_ok.2 ⟨hshape, rfl⟩),
      Filter.detect_eq_choose (Detection.keysOf_eq_ok.2 ⟨hshape.reordered h, rfl⟩)]
    simp only [Detection.choose_eq_ok, Detection.choose_eq_ambiguous, hcandidates, implies_true,
      and_self]
  · have hshape' : ¬w.Shaped (limits.maxDepth + 1) := fun hw => hshape (hw.reordered h.symm)
    obtain ⟨error, hv, hfault⟩ := registry.detect_of_not_shaped hshape
    obtain ⟨error', hw, hfault'⟩ := registry.detect_of_not_shaped hshape'
    rw [hv, hw]
    refine ⟨fun code => by simp, fun codes => iff_of_false ?_ ?_⟩
    · rintro ⟨⟩
      exact hfault
    · rintro ⟨⟩
      exact hfault'

/-! ## Both together -/

/-- The order of keys decides nothing. Two documents that differ only in the order in which their
objects, at any depth, have their keys are both accepted for an entity, or neither; what they are
read as then has the same number of conditions, is the same up to the order of conjuncts, and is
planned with joins for the same paths, written in the same places. Detection finds the same entity
for both, or the same candidates. -/
theorem Filter.ofJson_reordered {registry : Registry} (hclosed : registry.validate = .ok ())
    (hplain : registry.PlainRelations) (limits : FilterLimits) {code : String} {entity : Entity}
    (hentity : registry.find? code = some entity) {v w : Json} (h : v.Reordered w) :
    ((∃ f, ofJson registry limits (some code) v = .ok f) ↔
      ∃ g, ofJson registry limits (some code) w = .ok g) ∧
    (∀ f g, ofJson registry limits (some code) v = .ok f →
      ofJson registry limits (some code) w = .ok g →
      f.conditionCount = g.conditionCount ∧ f.Rearranged g ∧
        ∃ plan plan', JoinPlan.ofFilter registry code f = .ok plan ∧
          JoinPlan.ofFilter registry code g = .ok plan' ∧
          (plan.joins.map fun j => (j.path, j.placement)).Perm
            (plan'.joins.map fun j => (j.path, j.placement))) ∧
    (∀ found, registry.detect limits v = .ok found ↔ registry.detect limits w = .ok found) ∧
    ∀ codes, registry.detect limits v = .error (.ambiguousEntity codes) ↔
      registry.detect limits w = .error (.ambiguousEntity codes) := by
  have hplan {json : Json} {f : Filter} (hf : ofJson registry limits (some code) json = .ok f) :
      ∃ plan, JoinPlan.ofFilter registry code f = .ok plan :=
    JoinPlan.ofFilter_ok hclosed hentity ((ofJson_safe hclosed hentity limits json).of_ok hf).fits
  refine ⟨⟨?_, ?_⟩, ?_, registry.detect_reordered h limits⟩
  · rintro ⟨f, hf⟩
    obtain ⟨g, hg, -⟩ := accepted_of_reordered hentity h hf
    exact ⟨g, hg⟩
  · rintro ⟨g, hg⟩
    obtain ⟨f, hf, -⟩ := accepted_of_reordered hentity h.symm hg
    exact ⟨f, hf⟩
  · intro f g hf hg
    have hsame := rearranged_of_reordered hentity h hf hg
    obtain ⟨g', hg', hcount⟩ := accepted_of_reordered hentity h hf
    cases hg.symm.trans hg'
    obtain ⟨plan, hfplan⟩ := hplan hf
    obtain ⟨plan', hgplan⟩ := hplan hg
    exact ⟨hcount, hsame, plan, plan', hfplan, hgplan,
      JoinPlan.ofFilter_rearranged hplain hsame hfplan hgplan⟩

/-- The same decks, with every object in reverse order. -/
def Catalog.reversedDecksDocument : Json :=
  .object [
    ("not", .object [("card_count", .object [("between", .array [.integer 3, .integer 5])])]),
    ("cards", .object [("size_gte", .integer 2),
      ("none", .object [("updated_at", .object [("older_than_days", .integer 30)]),
        ("image", .object [("is_null", .bool true)])]),
      ("any", .object [("rank", .object [("in_", .array [.text "S", .text "A"])])])])]

open Json in
theorem Catalog.reordered_decksDocument :
    Catalog.rareDecksDocument.Reordered Catalog.reversedDecksDocument := by
  refine .object (by decide) (matched_iff.2 ⟨_, .cons ⟨?_⟩ (.cons ⟨?_⟩ .nil), .swap _ _ _⟩)
  · refine .object (by decide) (matched_iff.2 ⟨_, .cons ⟨?_⟩ (.cons ⟨?_⟩ (.cons ⟨?_⟩ .nil)),
      List.reverse_perm [_, _, _]⟩)
    · exact .single (.single (.array (.cons (.scalar nofun nofun)
        (.cons (.scalar nofun nofun) .nil))))
    · exact .object (by decide) (matched_iff.2 ⟨_, .cons ⟨.single (.scalar nofun nofun)⟩
        (.cons ⟨.single (.scalar nofun nofun)⟩ .nil), .swap _ _ _⟩)
    · exact .scalar nofun nofun
  · exact .single (.single (.array (.cons (.scalar nofun nofun)
      (.cons (.scalar nofun nofun) .nil))))

theorem Filter.ofJson_reordered_decks :
    (∃ f g, ofJson Catalog.registry .default (some "deck") Catalog.rareDecksDocument = .ok f ∧
      ofJson Catalog.registry .default (some "deck") Catalog.reversedDecksDocument = .ok g ∧
      f.conditionCount = g.conditionCount ∧ f.Rearranged g ∧
      ∃ plan plan', JoinPlan.ofFilter Catalog.registry "deck" f = .ok plan ∧
        JoinPlan.ofFilter Catalog.registry "deck" g = .ok plan' ∧
        (plan.joins.map fun j => (j.path, j.placement)).Perm
          (plan'.joins.map fun j => (j.path, j.placement))) ∧
    Catalog.registry.detect .default Catalog.reversedDecksDocument = .ok "deck" := by
  have hdeck : Catalog.registry.find? "deck" = some Catalog.deck := rfl
  obtain ⟨haccepted, hsame, hdetected, -⟩ := ofJson_reordered Catalog.validate_registry
    Catalog.plainRelations_registry .default hdeck Catalog.reordered_decksDocument
  have hread : ∃ f, ofJson Catalog.registry .default (some "deck") Catalog.rareDecksDocument =
      .ok f := ⟨_, rfl⟩
  obtain ⟨g, hg⟩ := haccepted.1 hread
  obtain ⟨f, hf⟩ := hread
  refine ⟨⟨f, g, hf, hg, hsame f g hf hg⟩, (hdetected _).1 rfl⟩

end FilterQuery
