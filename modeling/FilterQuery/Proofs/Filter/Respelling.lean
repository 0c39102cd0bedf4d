import FilterQuery.Proofs.Meaning.Equivalence
import FilterQuery.Proofs.Schema.Plain

/-!
# Two spellings of a test on a collection

That some row of a collection satisfies a filter is written in two ways: the filter stands as the
value of the relation, or as that of the keyword `any`. `RespelledMember` relates two values of a
key of a filter of an entity of which one is the other in the other spelling, or has the other
spelling somewhere inside: in an item of a logical word, in the value of a relation, or in the value
of a keyword. `RespelledFilter` relates whole documents.

The grammar has both or neither (`RespelledMember.validMember_iff`), and they are read as equivalent
entries, although the two spellings fill different slots (`RespelledMember.equivalent`). So one
document is accepted when the other one is, and what is read means the same
(`RespelledFilter.accepted_iff`, `RespelledFilter.equivalent`).
-/

namespace FilterQuery

/-! ## Documents -/

/-- An object with a member among others. -/
def Json.holding (before : List (String × Json)) (key : String) (after : List (String × Json))
    (json : Json) : Json :=
  .object (before ++ (key, json) :: after)

/-- The test that some row of a collection satisfies a filter. -/
def Json.someRow (json : Json) : Json :=
  .object [("any", json)]

section

variable (registry : Registry)

/-- Two values of a key in a filter of an entity, the second of which is the first with one filter
of a relation to many rows respelled as a test on the collection. -/
inductive RespelledMember : Entity → String → Json → Json → Prop
  /-- The value of the relation itself, none of whose keys is a keyword of collections. -/
  | spelled {entity : Entity} {name : String} {relation : Relation}
      {members : List (String × Json)} (noWord : isLogicalWord name = false)
      (isRelation : entity.relation? name = some relation) (isMany : relation.isMany = true)
      (noKeyword : ∀ m ∈ members, isCollectionKeyword m.1 = false) :
      RespelledMember entity name (.object members) (.someRow (.object members))
  /-- A member of an item of a logical word. -/
  | item {entity : Entity} {word key : String} {json json' : Json}
      {before after : List (String × Json)} (items others : List Json)
      (isWord : word = andWord ∨ word = orWord) (inside : RespelledMember entity key json json') :
      RespelledMember entity word (.array (items ++ .holding before key after json :: others))
        (.array (items ++ .holding before key after json' :: others))
  /-- A member of a negated filter. -/
  | negation {entity : Entity} {key : String} {json json' : Json}
      {before after : List (String × Json)} (inside : RespelledMember entity key json json') :
      RespelledMember entity notWord (.holding before key after json)
        (.holding before key after json')
  /-- A member of the filter of a relation. -/
  | nested {entity target : Entity} {name key : String} {relation : Relation} {json json' : Json}
      {before after : List (String × Json)} (noWord : isLogicalWord name = false)
      (isRelation : entity.relation? name = some relation)
      (isTarget : registry.find? relation.target = some target)
      (noKeyword : ∀ m ∈ before ++ (key, json) :: after, isCollectionKeyword m.1 = false)
      (inside : RespelledMember target key json json') :
      RespelledMember entity name (.holding before key after json)
        (.holding before key after json')
  /-- A member of the filter of a quantifier. -/
  | quantified {entity target : Entity} {name keyword key : String} {relation : Relation}
      {quantifier : Quantifier} {json json' : Json} {before after : List (String × Json)}
      (keywords others : List (String × Json)) (noWord : isLogicalWord name = false)
      (isRelation : entity.relation? name = some relation)
      (isTarget : registry.find? relation.target = some target)
      (isKeyword : CollectionKeyword.ofName? keyword = some (.quantifier quantifier))
      (inside : RespelledMember target key json json') :
      RespelledMember entity name
        (.holding keywords keyword others (.holding before key after json))
        (.holding keywords keyword others (.holding before key after json'))

/-- Two documents for an entity, the second of which is the first with one filter of a relation to
many rows respelled. -/
inductive RespelledFilter (entity : Entity) : Json → Json → Prop
  | member {key : String} {json json' : Json} (before after : List (String × Json))
      (inside : RespelledMember registry entity key json json') :
      RespelledFilter entity (.holding before key after json) (.holding before key after json')

end

variable {registry : Registry} {entity target : Entity} {relation : Relation}
  {name key : String} {json json' : Json} {members before after : List (String × Json)}

/-! ## The grammar has both -/

/-- Without keywords among its keys, the value of a relation is a filter of the target. -/
theorem validRelation_of_noKeyword (hkeyword : ∀ m ∈ members, isCollectionKeyword m.1 = false) :
    ValidRelation registry relation target (.object members) ↔
      ValidFilter registry target (.object members) := by
  constructor
  · intro h
    obtain ⟨_, ⟨⟩, hoperator⟩ := h.exists_object
    exact (validRelation_nested hoperator hkeyword).1 h
  · exact fun h => .nested h.hasMember_of_isName hkeyword h

/-- With a keyword among its keys, it is an object of keywords. -/
theorem validRelation_of_keyword (hkeyword : ∃ m ∈ members, isCollectionKeyword m.1 = true) :
    ValidRelation registry relation target (.object members) ↔
      relation.isMany = true ∧ ∀ m ∈ members, ValidKeyword registry target m.1 m.2 := by
  constructor
  · intro h
    obtain ⟨_, ⟨⟩, hoperator⟩ := h.exists_object
    exact (validRelation_collection hoperator hkeyword).1 h
  · intro h
    refine (validRelation_collection (fun m hm hname => ?_) hkeyword).2 h
    simp [FilterDocument.isName_of_isCollectionKeyword (h.2 m hm).isKeyword] at hname

theorem validFilter_holding :
    ValidFilter registry entity (.holding before key after json) ↔
      (∀ m ∈ before, ValidMember registry entity m.1 m.2) ∧ ValidMember registry entity key json ∧
        ∀ m ∈ after, ValidMember registry entity m.1 m.2 := by
  rw [Json.holding, validFilter_object, List.forall_mem_append, List.forall_mem_cons]

/-- What replaces a member by a valid one leaves an object valid. -/
theorem validFilter_holding_congr
    (h : ValidMember registry entity key json ↔ ValidMember registry entity key json') :
    ValidFilter registry entity (.holding before key after json) ↔
      ValidFilter registry entity (.holding before key after json') := by
  rw [validFilter_holding, validFilter_holding, h]

theorem validMember_of_relation (hword : isLogicalWord name = false)
    (hrelation : entity.relation? name = some relation) :
    ValidMember registry entity name json ↔
      ∃ target, registry.find? relation.target = some target ∧
        ValidRelation registry relation target json := by
  rw [validMember_relation hword (Entity.field?_of_relation? hrelation)]
  simp [hrelation]

/-- Both of two spellings are members of a filter of an entity, or neither. -/
theorem RespelledMember.validMember_iff (h : RespelledMember registry entity key json json') :
    ValidMember registry entity key json ↔ ValidMember registry entity key json' := by
  induction h with
  | @spelled entity name relation members hword hrelation hmany hkeyword =>
    rw [validMember_of_relation hword hrelation, validMember_of_relation hword hrelation]
    refine exists_congr fun target => and_congr_right fun _ => ?_
    have hany : ∃ m ∈ [("any", Json.object members)], isCollectionKeyword m.1 = true :=
      ⟨_, List.mem_singleton_self _, rfl⟩
    rw [validRelation_of_noKeyword hkeyword, Json.someRow, validRelation_of_keyword hany,
      List.forall_mem_singleton, validKeyword_quantifier rfl, and_iff_right hmany]
  | item items others hword _ ih =>
    rw [validMember_list hword, validMember_list hword]
    simp only [Json.array.injEq, exists_eq_left', List.forall_mem_append, List.forall_mem_cons,
      validFilter_holding_congr ih]
  | negation _ ih =>
    rw [validMember_negation, validMember_negation, validFilter_holding_congr ih]
  | @nested entity target name key relation json json' before after hword hrelation htarget hkeyword
      _ ih =>
    have hkeyword' : ∀ m ∈ before ++ (key, json') :: after, isCollectionKeyword m.1 = false := by
      simpa only [List.forall_mem_append, List.forall_mem_cons] using hkeyword
    rw [validMember_of_relation hword hrelation, validMember_of_relation hword hrelation]
    simp only [htarget, Option.some.injEq, exists_eq_left']
    exact (validRelation_of_noKeyword hkeyword).trans
      ((validFilter_holding_congr ih).trans (validRelation_of_noKeyword hkeyword').symm)
  | @quantified entity target name keyword key relation quantifier json json' before after keywords
      others hword hrelation htarget hkeyword _ ih =>
    have hany : ∀ inner : Json, ∃ m ∈ keywords ++ (keyword, inner) :: others,
        isCollectionKeyword m.1 = true :=
      fun inner => ⟨(keyword, inner), by simp, by simp [isCollectionKeyword, hkeyword]⟩
    rw [validMember_of_relation hword hrelation, validMember_of_relation hword hrelation]
    simp only [htarget, Option.some.injEq, exists_eq_left']
    have hkeywords (inner : Json) : ValidRelation registry relation target
        (.holding keywords keyword others inner) ↔ relation.isMany = true ∧
          ∀ m ∈ keywords ++ (keyword, inner) :: others, ValidKeyword registry target m.1 m.2 :=
      validRelation_of_keyword (hany inner)
    rw [hkeywords, hkeywords]
    simp only [List.forall_mem_append, List.forall_mem_cons, validKeyword_quantifier hkeyword,
      validFilter_holding_congr ih]

/-! ## Both are read as the same -/

namespace FilterDocument

variable {limits : FilterLimits} {levels count : Nat} {read : Entity → PartReader Filter}

/-- Without keywords among its keys, the value of a relation is read as a filter of the target. -/
theorem readRelation_noKeyword (hkeyword : ∀ m ∈ members, isCollectionKeyword m.1 = false)
    {p : RelationPart × Nat}
    (h : readRelation registry limits read name relation (.object members) count = .ok p) :
    ∃ target, registry.find? relation.target = some target ∧
      ∃ q, read target (.object members) count = .ok q ∧ (.nested q.1, q.2) = p := by
  have hnone : members.countP (fun m => isCollectionKeyword m.1) = 0 := by
    simpa [List.countP_eq_zero] using hkeyword
  rw [readRelation] at h
  obtain ⟨target, htarget, h⟩ := bind_eq_ok.1 h
  refine ⟨target, Registry.lookup_eq_ok.1 htarget, ?_⟩
  split at h
  · cases h
  · rw [if_pos hnone] at h
    exact map_eq_ok.1 h

/-- A quantifier is read with a filter. -/
theorem readKeyword_quantifier {keyword : String} {quantifier : Quantifier}
    {read : PartReader Filter} {p : RelatedTest × Nat}
    (h : readKeyword read name keyword (.quantifier quantifier) json count = .ok p) :
    ∃ q, read json count = .ok q ∧ (.quantified name quantifier q.1, q.2) = p := by
  rw [readKeyword] at h
  split at h
  · exact map_eq_ok.1 h
  · cases h

/-- One keyword is read as one test. -/
theorem readKeywords_single {keyword : String} {collectionKeyword : CollectionKeyword}
    (hkeyword : CollectionKeyword.ofName? keyword = some collectionKeyword)
    {read : PartReader Filter} {p : List RelatedTest × Nat}
    (h : readKeywords limits read name [(keyword, json)] count = .ok p) :
    ∃ q, readKeyword read name keyword collectionKeyword json count = .ok q ∧ p.1 = [q.1] := by
  simp only [readKeywords, hkeyword, bind_eq_ok] at h
  obtain ⟨test, htest, n, -, rest, hrest, h⟩ := h
  obtain rfl := Except.ok.inj hrest
  obtain rfl := Except.ok.inj h
  exact ⟨test, htest, rfl⟩

/-- One quantifier is read as one test. -/
theorem readKeywords_quantifier {keyword : String} {quantifier : Quantifier}
    (hkeyword : CollectionKeyword.ofName? keyword = some (.quantifier quantifier))
    {read : PartReader Filter} {p : List RelatedTest × Nat}
    (h : readKeywords limits read name [(keyword, json)] count = .ok p) :
    ∃ q, read json count = .ok q ∧ p.1 = [.quantified name quantifier q.1] := by
  obtain ⟨test, htest, hp⟩ := readKeywords_single hkeyword h
  obtain ⟨q, hq, rfl⟩ := readKeyword_quantifier htest
  exact ⟨q, hq, hp⟩

/-- In either spelling, the same filter of the target is read. -/
theorem readRelation_spelled (hkeyword : ∀ m ∈ members, isCollectionKeyword m.1 = false)
    {p q : RelationPart × Nat}
    (hp : readRelation registry limits read name relation (.object members) count = .ok p)
    (hq : readRelation registry limits read name relation (.someRow (.object members)) count =
      .ok q) :
    ∃ f, p.1 = .nested f ∧ q.1 = .related [.quantified name .any f] := by
  obtain ⟨target, htarget, f, hf, rfl⟩ := readRelation_noKeyword hkeyword hp
  obtain ⟨target', htarget', -, -, tests, htests, rfl⟩ :=
    (readRelation_keywords ⟨_, List.mem_singleton_self _, rfl⟩).1 hq
  obtain ⟨g, hg, hsome⟩ := readKeywords_quantifier rfl htests
  cases htarget.symm.trans htarget'
  cases hf.symm.trans hg
  exact ⟨f.1, rfl, congrArg _ hsome⟩

variable {part : Registry}

/-- An object with a member that may be replaced is read as an equivalent filter when it is. -/
theorem holding_equivalent
    (h : ∀ levels first second,
      readEntry registry limits (readFilter registry limits levels) entity key json 0 = .ok first →
      readEntry registry limits (readFilter registry limits levels) entity key json' 0 =
        .ok second →
      first.1.Equivalent part entity.code second.1) {f g : Filter × Nat}
    (hf : readFilter registry limits levels entity (.holding before key after json) 0 = .ok f)
    (hg : readFilter registry limits levels entity (.holding before key after json') 0 = .ok g) :
    f.1.Equivalent part entity.code g.1 := by
  cases levels with
  | zero => cases hf
  | succ levels =>
    obtain ⟨entries, hfirst, hentries⟩ := readFilter_members hf
    obtain ⟨entries', hsecond, hentries'⟩ := readFilter_members hg
    rw [hfirst, hsecond]
    refine assemble_equivalent ?_ (forall₂_replaced hentries hentries' ?_ ?_)
    · cases before <;> simp [isCombination]
    · rintro m entry entry' ⟨n, hn⟩ ⟨n', hn'⟩
      cases hn.symm.trans hn'
      exact .refl entry
    · rintro entry entry' ⟨n, hn⟩ ⟨n', hn'⟩
      exact h levels _ _ hn hn'

theorem readEntry_list {word : String} (hword : word = andWord ∨ word = orWord) {p : Entry × Nat}
    (h : readEntry registry limits read entity word json count = .ok p) :
    ∃ q, readList (read entity) word json count = .ok q ∧
      p.1 = if word = andWord then .all q.1 else .any q.1 := by
  rcases hword with rfl | rfl
  · obtain ⟨q, hq, rfl⟩ := map_eq_ok.1 h
    exact ⟨q, hq, rfl⟩
  · obtain ⟨q, hq, rfl⟩ := map_eq_ok.1 h
    exact ⟨q, hq, rfl⟩

theorem readEntry_negation {p : Entry × Nat}
    (h : readEntry registry limits read entity notWord json count = .ok p) :
    ∃ q, read entity json count = .ok q ∧ p.1 = .negated q.1 := by
  obtain ⟨q, hq, rfl⟩ := map_eq_ok.1 h
  rw [readNegated] at hq
  split at hq
  · exact ⟨q, hq, rfl⟩
  · cases hq

/-- So is a list with an item that may be replaced. -/
theorem readList_equivalent {code word : String} {reader : PartReader Filter}
    (hread : BoundedFilters registry limits levels target reader reader) {items others : List Json}
    (h : ∀ f g, reader json 0 = .ok f → reader json' 0 = .ok g → f.1.Equivalent part code g.1)
    {p q : List Filter × Nat}
    (hp : readList reader word (.array (items ++ json :: others)) 0 = .ok p)
    (hq : readList reader word (.array (items ++ json' :: others)) 0 = .ok q) :
    List.Forall₂ (Filter.Equivalent part code) p.1 q.1 := by
  refine forall₂_replaced (readItems_pieces hread (Nat.zero_le _) hp)
    (readItems_pieces hread (Nat.zero_le _) hq) ?_ ?_
  · rintro j f g ⟨n, hn⟩ ⟨n', hn'⟩
    cases hn.symm.trans hn'
    exact .refl f
  · rintro f g ⟨n, hn⟩ ⟨n', hn'⟩
    exact h _ _ hn hn'

/-- So are keywords with a filter of a quantifier that may be replaced. -/
theorem readKeywords_equivalent {code keyword : String} {quantifier : Quantifier}
    {reader : PartReader Filter}
    (hread : BoundedFilters registry limits levels target reader reader)
    (hkeyword : CollectionKeyword.ofName? keyword = some (.quantifier quantifier))
    {keywords others : List (String × Json)}
    (h : ∀ f g, reader json 0 = .ok f → reader json' 0 = .ok g →
      (Filter.related (.quantified name quantifier f.1)).Equivalent part code
        (.related (.quantified name quantifier g.1)))
    {p q : List RelatedTest × Nat}
    (hp : readKeywords limits reader name (keywords ++ (keyword, json) :: others) 0 = .ok p)
    (hq : readKeywords limits reader name (keywords ++ (keyword, json') :: others) 0 = .ok q) :
    List.Forall₂ (Filter.Equivalent part code) (p.1.map .related) (q.1.map .related) := by
  obtain ⟨pieces, hpieces, hflatten⟩ :=
    (readKeywords_piecewise hread name).pieces (Nat.zero_le _) hp
  obtain ⟨pieces', hpieces', hflatten'⟩ :=
    (readKeywords_piecewise hread name).pieces (Nat.zero_le _) hq
  have htests : List.Forall₂ (List.Forall₂ fun t t' =>
      (Filter.related t).Equivalent part code (.related t')) pieces pieces' := by
    refine forall₂_replaced hpieces hpieces' ?_ ?_
    · rintro m piece piece' ⟨n, hn⟩ ⟨n', hn'⟩
      cases hn.symm.trans hn'
      exact List.forall₂_same.2 fun t _ => .refl _
    · rintro piece piece' ⟨n, hn⟩ ⟨n', hn'⟩
      obtain ⟨f, hf, hpiece⟩ := readKeywords_quantifier hkeyword hn
      obtain ⟨g, hg, hpiece'⟩ := readKeywords_quantifier hkeyword hn'
      simp only at hpiece hpiece'
      rw [hpiece, hpiece']
      exact .cons (h f g hf hg) .nil
  rw [← hflatten, ← hflatten', List.forall₂_map_left_iff, List.forall₂_map_right_iff]
  exact List.rel_flatten htests

end FilterDocument

open FilterDocument in
/-- Two spellings of a member of a filter of an entity are read as equivalent entries, where the
relations may also be taken from a part of the registry. -/
theorem RespelledMember.equivalent {part : Registry} (hpart : part.Within registry)
    (h : RespelledMember registry entity key json json')
    (hentity : registry.find? entity.code = some entity) {limits : FilterLimits} {levels : Nat}
    {first second : Entry × Nat}
    (hfirst : readEntry registry limits (readFilter registry limits levels) entity key json 0 =
      .ok first)
    (hsecond : readEntry registry limits (readFilter registry limits levels) entity key json' 0 =
      .ok second) : first.1.Equivalent part entity.code second.1 := by
  -- in the part, a relation of the entity is the one that is followed in the registry
  have hsame : ∀ {entity : Entity} {name : String} {relation r : Relation},
      registry.find? entity.code = some entity → entity.relation? name = some relation →
      part.relation? entity.code name = some r → r = relation := by
    intro entity name relation r hentity hrelation hr
    have hdeclared := Registry.relation?_eq_some.2 ⟨entity, hentity, hrelation⟩
    exact Option.some.inj ((hpart _ _ _ hr).symm.trans hdeclared)
  induction h generalizing levels first second with
  | @spelled entity name relation members hword hrelation hmany hkeyword =>
    rw [readEntry_relation hword hrelation] at hfirst hsecond
    obtain ⟨p, hp, rfl⟩ := map_eq_ok.1 hfirst
    obtain ⟨p', hp', rfl⟩ := map_eq_ok.1 hsecond
    obtain ⟨f, hnested, hrelated⟩ := readRelation_spelled hkeyword hp hp'
    simp only [hnested, hrelated]
    refine .relation (.all (.cons (.through_any fun r hr => ?_) .nil))
    rw [hsame hentity hrelation hr]
    exact hmany
  | @item entity word key json json' before after items others hword _ ih =>
    obtain ⟨fs, hfs, hfs'⟩ := readEntry_list hword hfirst
    obtain ⟨gs, hgs, hgs'⟩ := readEntry_list hword hsecond
    have hread := readFilter_bounded registry limits limits levels levels entity
    have hitems : List.Forall₂ (Filter.Equivalent part entity.code) fs.1 gs.1 :=
      readList_equivalent hread (fun _ _ => holding_equivalent fun _ _ _ => ih hentity) hfs hgs
    rw [hfs', hgs']
    split
    · exact .all hitems
    · exact .any hitems
  | @negation entity key json json' before after _ ih =>
    obtain ⟨f, hf, hf'⟩ := readEntry_negation hfirst
    obtain ⟨g, hg, hg'⟩ := readEntry_negation hsecond
    rw [hf', hg']
    exact .negated (holding_equivalent (fun _ _ _ => ih hentity) hf hg)
  | @nested entity target name key relation json json' before after hword hrelation htarget hkeyword
      _ ih =>
    have hkeyword' : ∀ m ∈ before ++ (key, json') :: after, isCollectionKeyword m.1 = false := by
      simpa only [List.forall_mem_append, List.forall_mem_cons] using hkeyword
    rw [readEntry_relation hword hrelation] at hfirst hsecond
    obtain ⟨p, hp, rfl⟩ := map_eq_ok.1 hfirst
    obtain ⟨p', hp', rfl⟩ := map_eq_ok.1 hsecond
    obtain ⟨_, hfound, f, hf, rfl⟩ := readRelation_noKeyword hkeyword hp
    obtain ⟨_, hfound', g, hg, rfl⟩ := readRelation_noKeyword hkeyword' hp'
    cases htarget.symm.trans hfound
    cases htarget.symm.trans hfound'
    have hcode := Registry.code_of_find? htarget
    have htargetFound : registry.find? target.code = some target := by rw [hcode, htarget]
    refine .relation (.all (.cons (.through fun r hr => ?_) .nil))
    rw [hsame hentity hrelation hr, ← hcode]
    exact holding_equivalent (fun _ _ _ => ih htargetFound) hf hg
  | @quantified entity target name keyword key relation quantifier json json' before after keywords
      others hword hrelation htarget hkeyword _ ih =>
    have hany : ∀ inner : Json, ∃ m ∈ keywords ++ (keyword, inner) :: others,
        isCollectionKeyword m.1 = true :=
      fun inner => ⟨(keyword, inner), by simp, by simp [isCollectionKeyword, hkeyword]⟩
    rw [readEntry_relation hword hrelation] at hfirst hsecond
    obtain ⟨p, hp, rfl⟩ := map_eq_ok.1 hfirst
    obtain ⟨p', hp', rfl⟩ := map_eq_ok.1 hsecond
    obtain ⟨_, hfound, -, -, q, hq, rfl⟩ := (readRelation_keywords (hany _)).1 hp
    obtain ⟨_, hfound', -, -, q', hq', rfl⟩ := (readRelation_keywords (hany _)).1 hp'
    cases htarget.symm.trans hfound
    cases htarget.symm.trans hfound'
    have hcode := Registry.code_of_find? htarget
    have htargetFound : registry.find? target.code = some target := by rw [hcode, htarget]
    have hread := readFilter_bounded registry limits limits levels levels target
    refine .relation (.all (readKeywords_equivalent hread hkeyword (fun f g hf hg => ?_) hq hq'))
    refine .quantified fun r hr => ?_
    rw [hsame hentity hrelation hr, ← hcode]
    exact holding_equivalent (fun _ _ _ => ih htargetFound) hf hg

/-! ## Whole documents -/

namespace RespelledFilter

variable {code : String}

/-- Where the limits leave room for both, both documents are accepted or neither. -/
theorem accepted_iff (h : RespelledFilter registry entity json json')
    (hentity : registry.find? code = some entity) {limits : FilterLimits}
    (hdepth : json.depth ≤ limits.maxDepth + 1) (hdepth' : json'.depth ≤ limits.maxDepth + 1)
    (hcount : json.memberCount ≤ limits.maxConditions)
    (hcount' : json'.memberCount ≤ limits.maxConditions) :
    (∃ f, Filter.ofJson registry limits (some code) json = .ok f) ↔
      ∃ g, Filter.ofJson registry limits (some code) json' = .ok g := by
  rw [Filter.ofJson_accepts_iff hentity hdepth hcount,
    Filter.ofJson_accepts_iff hentity hdepth' hcount']
  cases h with
  | member before after hinside => exact validFilter_holding_congr hinside.validMember_iff

/-- What the two documents are read as is equivalent, also in a part of the registry. -/
theorem equivalent (h : RespelledFilter registry entity json json')
    (hentity : registry.find? code = some entity) {part : Registry} (hpart : part.Within registry)
    {limits : FilterLimits} {f g : Filter}
    (hf : Filter.ofJson registry limits (some code) json = .ok f)
    (hg : Filter.ofJson registry limits (some code) json' = .ok g) :
    f.Equivalent part code g := by
  obtain ⟨p, hp, rfl⟩ := (Filter.ofJson_eq_ok hentity).1 hf
  obtain ⟨q, hq, rfl⟩ := (Filter.ofJson_eq_ok hentity).1 hg
  have hcode := Registry.code_of_find? hentity
  have hown : registry.find? entity.code = some entity := by rw [hcode, hentity]
  cases h with
  | member before after hinside =>
    rw [← hcode]
    exact FilterDocument.holding_equivalent (fun _ _ _ => hinside.equivalent hpart hown) hp hq

end RespelledFilter

end FilterQuery
