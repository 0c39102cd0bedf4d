import FilterQuery.Proofs.Filter.Detecting
import FilterQuery.Proofs.Filter.Splitting
import FilterQuery.Proofs.JoinPlan.Chains

/-!
# Filters through a relation

The value of a relation to one row is a filter of the target. It is read as the filter that it is
for the target, one level deeper, unless a key of it is a collection keyword or the relation bears
the name of a logical word (`Filter.ofJson_through_iff`); and so on through a chain of such
relations (`Filter.ofJson_along`). Keys that name an operator do no harm: where they are members of
the target they are taken as such. Collection keywords are not given that chance, so that a member
of the target that bears one as its name can be filtered directly and not through the relation
(`Polls.not_through`).
-/

namespace FilterQuery

/-- Limits that allow one level of nesting more. -/
def FilterLimits.deeper (limits : FilterLimits) : FilterLimits :=
  { limits with maxDepth := limits.maxDepth + 1 }

/-- A document as the value of a relation. -/
def Json.through (name : String) (json : Json) : Json :=
  .object [(name, json)]

/-- The filter of an entity that holds for the rows related to one for which a filter holds. -/
def Filter.through (source name : String) (filter : Filter) : Filter :=
  .entity { EntityFilter.everything source with nested := [(name, filter)] }

/-! ## Keys that name operators -/

theorem isName_of_isLogicalWord {key : String} (h : isLogicalWord key = true) :
    Operator.isName key = false := by
  obtain (rfl | rfl) | rfl := isLogicalWord_eq_true h
  all_goals decide

/-- In a filter of an entity, a key that names an operator is a member of the entity. -/
theorem ValidFilter.hasMember_of_isName {registry : Registry} {entity : Entity}
    {members : List (String × Json)} (h : ValidFilter registry entity (.object members)) :
    ∀ m ∈ members, Operator.isName m.1 = true → entity.hasMember m.1 = true := by
  intro m hm hname
  cases hword : isLogicalWord m.1 with
  | true => simp [isName_of_isLogicalWord hword] at hname
  | false => exact h.explains m.1 (.member hword hm)

namespace FilterDocument

variable {registry : Registry} {limits wide : FilterLimits} {levels : Nat} {entity target : Entity}
  {name : String} {relation : Relation} {members : List (String × Json)} {json : Json}
  {count : Nat}

/-! ## The value of a relation -/

/-- What is wrong with collection keywords in the value of a relation to one row. -/
def keywordFault (name : String) (relation : Relation) (members : List (String × Json)) :
    FilterError :=
  if members.all fun m => isCollectionKeyword m.1 then
    .unsupportedOperator name ((members.map Prod.fst).headD "") relation.kindName
  else .malformedFilter (.mixedKeywords name)

/-- Of a filter of the target, no key is refused as an operator, and only the collection keywords
among its keys decide what it is read as. -/
theorem readRelation_of_valid {read : Entity → PartReader Filter} (hone : relation.isMany = false)
    (htarget : registry.find? relation.target = some target)
    (hvalid : ValidFilter registry target (.object members)) :
    readRelation registry limits read name relation (.object members) count =
      if ∀ m ∈ members, isCollectionKeyword m.1 = false then
        (read target (.object members) count).map fun (f, n) => (.nested f, n)
      else .error (keywordFault name relation members) := by
  have hoperators : (members.find? fun m => Operator.isName m.1 && !target.hasMember m.1) =
      none := by
    rw [List.find?_eq_none]
    intro m hm hrefused
    simp only [Bool.and_eq_true, Bool.not_eq_true'] at hrefused
    simp [hvalid.hasMember_of_isName m hm hrefused.1] at hrefused
  have hnone : (members.countP fun m => isCollectionKeyword m.1) = 0 ↔
      ∀ m ∈ members, isCollectionKeyword m.1 = false := by
    simp [List.countP_eq_zero]
  have hall : (members.countP fun m => isCollectionKeyword m.1) = members.length ↔
      (members.all fun m => isCollectionKeyword m.1) = true := by
    rw [List.countP_eq_length, List.all_eq_true]
  simp only [readRelation, Registry.lookup_eq_ok.2 htarget, bind, Except.bind, hoperators, hnone,
    hone, keywordFault]
  split
  · rfl
  · simp only [ne_eq, hall, Bool.not_false, if_true, ite_not]
    split
    · rfl
    · rfl

/-- A document of one relation holds what the value of the relation adds to the filter of every
row. -/
theorem readFilter_relation (hword : isLogicalWord name = false)
    (hrelation : entity.relation? name = some relation) :
    readFilter registry limits (levels + 1) entity (json.through name) count =
      (readRelation registry limits (readFilter registry limits levels) name relation json
        count).map fun (part, n) => (.entity (part.addTo name (.everything entity.code)), n) := by
  rw [Json.through, readFilter_single, readEntry_relation hword hrelation, map_map]
  rfl

/-- A document of one logical word combines filters and is no filter of an entity. -/
theorem readFilter_word (hword : isLogicalWord name = true) {p : Filter × Nat}
    (h : readFilter registry limits levels entity (json.through name) count = .ok p)
    (filter : EntityFilter) : p.1 ≠ .entity filter := by
  cases levels with
  | zero => cases h
  | succ levels =>
    rw [Json.through, readFilter_single] at h
    obtain ⟨⟨entry, n⟩, hentry, rfl⟩ := map_eq_ok.1 h
    have hfrom := readEntry_from hentry
    cases entry with
    | fields tests => cases hword.symm.trans hfrom
    | relation name part => cases hword.symm.trans hfrom
    | _ => exact Filter.noConfusion

/-! ## Levels of nesting -/

/-- With as many levels left, what is read does not depend on the greatest depth. -/
theorem readFilter_of_levels {p : Filter × Nat}
    (h : readFilter registry wide levels entity json 0 = .ok p)
    (hconditions : limits.maxConditions = wide.maxConditions) :
    readFilter registry limits levels entity json 0 = .ok p := by
  have hroom : (json.extent registry entity).deeper.Within wide levels 0 :=
    (readFilter_bounded registry wide wide levels levels entity json 0 0).room h h (Nat.zero_le _)
  rw [Extent.Within, ← hconditions] at hroom
  exact (readFilter_bounded registry limits wide levels levels entity json 0 0).same h hroom

end FilterDocument

/-! ## Through one relation -/

namespace Filter

variable {registry : Registry} {limits : FilterLimits} {source name : String} {relation : Relation}
  {members : List (String × Json)} {filter : Filter}

/-- A filter of the target of a relation to one row, read as the value of the relation with one
level more allowed: with a collection keyword among its keys it is refused, and without it is
read as the same filter. -/
theorem ofJson_through (hrelation : registry.relation? source name = some relation)
    (hone : relation.isMany = false) (hword : isLogicalWord name = false)
    (h : ofJson registry limits (some relation.target) (.object members) = .ok filter) :
    ofJson registry limits.deeper (some source) (Json.through name (.object members)) =
      if ∀ m ∈ members, isCollectionKeyword m.1 = false then .ok (filter.through source name)
      else .error (FilterDocument.keywordFault name relation members) := by
  obtain ⟨entity, hsource, hdeclared⟩ := Registry.relation?_eq_some.1 hrelation
  obtain ⟨target, htarget⟩ := exists_entity_of_ofJson h
  have hvalid := valid_of_ofJson htarget h
  have hread : FilterDocument.readFilter registry limits.deeper (limits.deeper.maxDepth + 1) entity
      (Json.through name (.object members)) 0 = _ :=
    FilterDocument.readFilter_relation hword hdeclared
  rw [FilterDocument.readRelation_of_valid hone htarget hvalid] at hread
  split
  · rename_i hkeys
    obtain ⟨p, hp, rfl⟩ := (ofJson_eq_ok htarget).1 h
    have hinner : FilterDocument.readFilter registry limits.deeper limits.deeper.maxDepth target
        (.object members) 0 = .ok p := FilterDocument.readFilter_of_levels hp rfl
    rw [if_pos hkeys, hinner] at hread
    refine (ofJson_eq_ok hsource).2 ⟨_, hread, ?_⟩
    rw [Registry.code_of_find? hsource]
    rfl
  · rename_i hkeys
    rw [if_neg hkeys] at hread
    exact (ofJson_eq_error hsource).2 hread

/-- Every filter of the target of a relation to one row is also one through the relation, for one
level more of nesting, exactly as far as the relation does not bear the name of a logical word and
no key of the filter is a collection keyword. So a field that can be filtered directly can be
filtered through the relation, whatever its name, unless this is a collection keyword. -/
theorem ofJson_through_iff (hrelation : registry.relation? source name = some relation)
    (hone : relation.isMany = false)
    (h : ofJson registry limits (some relation.target) (.object members) = .ok filter) :
    ofJson registry limits.deeper (some source) (Json.through name (.object members)) =
        .ok (filter.through source name) ↔
      isLogicalWord name = false ∧ ∀ m ∈ members, isCollectionKeyword m.1 = false := by
  constructor
  · intro hthrough
    have hword : isLogicalWord name = false := by
      rw [← Bool.not_eq_true]
      intro hword
      obtain ⟨entity, hsource, -⟩ := Registry.relation?_eq_some.1 hrelation
      obtain ⟨p, hp, heq⟩ := (ofJson_eq_ok hsource).1 hthrough
      exact FilterDocument.readFilter_word hword hp _ heq
    refine ⟨hword, ?_⟩
    by_contra hkeys
    rw [ofJson_through hrelation hone hword h, if_neg hkeys] at hthrough
    cases hthrough
  · rintro ⟨hword, hkeys⟩
    rw [ofJson_through hrelation hone hword h, if_pos hkeys]

end Filter

/-- Cards with a picture whose name contains a text, by an author. -/
def Catalog.picturedMembers : List (String × Json) :=
  [("name", .object [("contains", .text "Rei")]),
    ("author_user", .object [("username", .object [("eq", .text "ann")])]),
    ("not", .object [("image", .object [("is_null", .bool true)])])]

theorem Filter.ofJson_through_iff_card :
    ∃ filter, ofJson Catalog.registry ⟨65536, 1, 3⟩ (some "card")
        (.object Catalog.picturedMembers) = .ok filter ∧
      ofJson Catalog.registry ⟨65536, 2, 3⟩ (some "summary_card_users")
        (Json.through "card" (.object Catalog.picturedMembers)) =
          .ok (filter.through "summary_card_users" "card") := by
  have hrelation : Catalog.registry.relation? "summary_card_users" "card" =
      some ⟨"card", .one, [("card_id", "card_id")]⟩ := rfl
  obtain ⟨filter, hread⟩ : ∃ filter, ofJson Catalog.registry ⟨65536, 1, 3⟩ (some "card")
      (.object Catalog.picturedMembers) = .ok filter := ⟨_, rfl⟩
  exact ⟨filter, hread, (ofJson_through_iff hrelation rfl hread).2 ⟨by decide, by decide⟩⟩

/-! ## Through a chain of relations -/

/-- The members of the value of the first relation of a chain, or those at its end. -/
def Json.membersAlong (members : List (String × Json)) : List String → List (String × Json)
  | [] => members
  | name :: names => [(name, .object (membersAlong members names))]

/-- The filter of an entity that holds for the rows from which a chain of relations leads to one for
which a filter holds. -/
def Filter.along (filter : Filter) : String → List String → List Relation → Filter
  | source, name :: names, relation :: relations =>
    (filter.along relation.target names relations).through source name
  | _, _, _ => filter

/-- A filter of the entity at the end of a chain of relations to one row is a filter through all of
them, for as many levels of nesting more. -/
theorem Filter.ofJson_along {registry : Registry} {limits : FilterLimits} {source : String}
    {names : List String} {relations : List Relation} {members : List (String × Json)}
    {filter : Filter} (hchain : registry.along? source names = some relations)
    (hone : ∀ relation ∈ relations, relation.isMany = false)
    (hwords : ∀ name ∈ names, isLogicalWord name = false)
    (hinner : ∀ name ∈ names.tail, isCollectionKeyword name = false)
    (hkeys : ∀ m ∈ members, isCollectionKeyword m.1 = false)
    (h : ofJson registry limits (some (JoinPlan.endOf source relations)) (.object members) =
      .ok filter) :
    ofJson registry { limits with maxDepth := limits.maxDepth + names.length } (some source)
        (.object (Json.membersAlong members names)) =
      .ok (filter.along source names relations) := by
  induction names generalizing source relations with
  | nil =>
    cases hchain
    exact h
  | cons name names ih =>
    simp only [Registry.along?, Option.bind_eq_bind, Option.bind_eq_some_iff] at hchain
    obtain ⟨relation, hrelation, rest, hrest, ⟨⟩⟩ := hchain
    obtain ⟨hfirst, hone⟩ := List.forall_mem_cons.1 hone
    obtain ⟨hword, hwords⟩ := List.forall_mem_cons.1 hwords
    -- the keys of the value of the first relation: the next relation, or those of the filter
    have hvalue : ∀ m ∈ Json.membersAlong members names, isCollectionKeyword m.1 = false := by
      cases names with
      | nil => exact hkeys
      | cons second names =>
        intro m hm
        rw [List.mem_singleton.1 hm]
        exact hinner second List.mem_cons_self
    have hread := ih hrest hone hwords (fun n hn => hinner n (List.mem_of_mem_tail hn)) h
    have hthrough := ofJson_through hrelation hfirst hword hread
    rw [if_pos hvalue] at hthrough
    exact hthrough

/-! ## Names that are collection keywords -/

namespace Polls

/-- Polls with their numbers of votes, by answers. One of these is a collection keyword. -/
def poll : Entity :=
  (Entity.new "poll" "polls").withKey ["id"]
    |>.field "id" .integer
    |>.field "yes" .integer
    |>.field "no" .integer
    |>.field "none" .integer

/-- Votes in polls. -/
def vote : Entity :=
  (Entity.new "vote" "votes").withKey ["id"]
    |>.field "id" .integer
    |>.field "poll_id" .integer
    |>.withRelation "poll" ⟨"poll", .one, [("poll_id", "id")]⟩

/-- Polls and votes. -/
def registry : Registry :=
  (Registry.empty.registerAll [poll, vote]).1

/-- Polls in which many have abstained. -/
def document : Json :=
  .object [("none", .object [("gt", .integer 10)])]

/-- The filter that the document is for polls. -/
def filter : Filter :=
  .entity { EntityFilter.everything "poll" with fields := [⟨"none", .gt, .single (.integer 10)⟩] }

/-- A collection keyword as the name of a field passes every check of a registry. The field can be
filtered directly and not through a relation to one row, which takes its name for the keyword. -/
theorem not_through :
    registry.validate = .ok () ∧
      registry.relation? "vote" "poll" = some ⟨"poll", .one, [("poll_id", "id")]⟩ ∧
      Filter.ofJson registry .default (some "poll") document = .ok filter ∧
      Filter.ofJson registry FilterLimits.default.deeper (some "vote")
          (Json.through "poll" document) =
        .error (.unsupportedOperator "poll" "none" "single-valued relation") :=
  ⟨rfl, rfl, rfl, rfl⟩

end Polls

end FilterQuery
