import FilterQuery.Filter.Detection
import FilterQuery.Proofs.Filter.Acceptance
import FilterQuery.Proofs.Filter.Keys
import FilterQuery.Proofs.Schema.Closed

/-!
# Detecting and reading

Detection walks through a document on its own, with checks of its own. It agrees with reading: where
a document is read as a filter of an entity, its keys are gathered, under the same limits, and they
are members of the entity. So a filter of some entity is read without naming the entity, as the
same filter, or it is ambiguous; and a document whose shape stops detection is a filter of no
entity (`Filter.ofJson_detected`).
-/

namespace FilterQuery

/-! ## Keys of a document -/

/-- A key that a document mentions: one that is no logical word, in the outermost object or in one
that is reached through logical words. -/
inductive Json.Mentions (key : String) : Json → Prop
  | member {members : List (String × Json)} {json : Json} (noWord : isLogicalWord key = false)
      (isMember : (key, json) ∈ members) : Mentions key (.object members)
  | item {members : List (String × Json)} {word : String} {items : List Json} {json : Json}
      (isWord : word = andWord ∨ word = orWord) (isMember : (word, .array items) ∈ members)
      (isItem : json ∈ items) (inside : Mentions key json) : Mentions key (.object members)
  | negated {members : List (String × Json)} {json : Json} (isMember : (notWord, json) ∈ members)
      (inside : Mentions key json) : Mentions key (.object members)

/-- An entity explains a document when every key that the document mentions is a member of it. -/
def Entity.Explains (entity : Entity) (json : Json) : Prop :=
  ∀ key, json.Mentions key → entity.hasMember key = true

theorem Entity.hasMember_of_field? {entity : Entity} {name : String} {field : Field}
    (h : entity.field? name = some field) : entity.hasMember name = true := by
  unfold Entity.field? at h
  split at h
  · rename_i found hfound
    exact Option.isSome_iff_exists.2 ⟨_, hfound⟩
  · cases h

theorem Entity.hasMember_of_relation? {entity : Entity} {name : String} {relation : Relation}
    (h : entity.relation? name = some relation) : entity.hasMember name = true := by
  unfold Entity.relation? at h
  split at h
  · rename_i found hfound
    exact Option.isSome_iff_exists.2 ⟨_, hfound⟩
  · cases h

/-- An entity explains its filters. -/
theorem ValidFilter.explains {registry : Registry} {entity : Entity} {json : Json}
    (h : ValidFilter registry entity json) : entity.Explains json := by
  intro key hmentions
  induction hmentions with
  | member noWord isMember =>
    have hmember := validFilter_object.1 h _ isMember
    cases hfield : entity.field? key with
    | some field => exact Entity.hasMember_of_field? hfield
    | none =>
      obtain ⟨relation, _, hrelation, -, -⟩ := (validMember_relation noWord hfield).1 hmember
      exact Entity.hasMember_of_relation? hrelation
  | item isWord isMember isItem _ ih =>
    have hmember := validFilter_object.1 h _ isMember
    obtain ⟨items, ⟨⟩, hitems⟩ := (validMember_list isWord).1 hmember
    exact ih (hitems _ isItem)
  | negated isMember _ ih =>
    have hmember := validFilter_object.1 h _ isMember
    exact ih (validMember_negation.1 hmember)

/-- A key that a member of a document mentions. -/
def MemberMentions (key word : String) (json : Json) : Prop :=
  if word = andWord ∨ word = orWord then
    ∃ items, json = .array items ∧ ∃ j ∈ items, j.Mentions key
  else if word = notWord then json.Mentions key
  else key = word

theorem mentions_object {key : String} {members : List (String × Json)} :
    (Json.object members).Mentions key ↔ ∃ m ∈ members, MemberMentions key m.1 m.2 := by
  constructor
  · intro h
    cases h with
    | member noWord isMember =>
      refine ⟨_, isMember, ?_⟩
      have hlist : ¬(key = andWord ∨ key = orWord) := fun hlist => by
        simp [(isLogicalWord_of_list hlist).1] at noWord
      have hnot : key ≠ notWord := fun hnot => by
        subst hnot
        exact absurd noWord (by decide)
      simp only [MemberMentions, if_neg hlist, if_neg hnot]
    | item isWord isMember isItem inside =>
      refine ⟨_, isMember, ?_⟩
      simp only [MemberMentions, if_pos isWord]
      exact ⟨_, rfl, _, isItem, inside⟩
    | negated isMember inside => exact ⟨_, isMember, inside⟩
  · rintro ⟨⟨word, json⟩, hmember, hmentions⟩
    simp only [MemberMentions] at hmentions
    split at hmentions
    · rename_i hlist
      obtain ⟨items, rfl, j, hj, hinside⟩ := hmentions
      exact .item hlist hmember hj hinside
    · rename_i hlist
      split at hmentions
      · rename_i hnot
        subst hnot
        exact .negated hmember hmentions
      · rename_i hnot
        subst hmentions
        refine .member ?_ hmember
        simp only [not_or] at hlist
        simp [isLogicalWord, hlist, hnot]

mutual

/-- A document mentions its keys. -/
theorem Json.mem_keys (key : String) : ∀ json : Json, key ∈ json.keys ↔ json.Mentions key
  | .object members => by rw [keys, mem_keysOfMembers key members, mentions_object]
  | .null | .bool _ | .integer _ | .float _ | .text _ | .array _ =>
    iff_of_false (by simp [keys]) (by rintro ⟨⟩)

theorem Json.mem_keysOfItems (key : String) :
    ∀ js : List Json, key ∈ keysOfItems js ↔ ∃ j ∈ js, j.Mentions key
  | [] => by simp [keysOfItems]
  | j :: js => by
    simp only [keysOfItems, List.mem_append, mem_keys key j, mem_keysOfItems key js,
      List.mem_cons, exists_eq_or_imp]

theorem Json.mem_keysOfMember (key word : String) :
    ∀ json : Json, key ∈ keysOfMember word json ↔ MemberMentions key word json
  | .array items => by
    have hitems := mem_keysOfItems key items
    unfold keysOfMember MemberMentions
    split
    · simp [hitems]
    · split
      · exact iff_of_false List.not_mem_nil (by rintro ⟨⟩)
      · exact List.mem_singleton
  | .object members => by
    have hmembers := mem_keysOfMembers key members
    unfold keysOfMember MemberMentions
    split
    · simp
    · split
      · rw [hmembers, mentions_object]
      · exact List.mem_singleton
  | .null | .bool _ | .integer _ | .float _ | .text _ => by
    unfold MemberMentions
    split
    · rename_i hlist
      simp [keysOfMember, (isLogicalWord_of_list hlist).1]
    · rename_i hlist
      split
      · rename_i hnot
        subst hnot
        exact iff_of_false (by simp [keysOfMember_negation, keys]) (by rintro ⟨⟩)
      · rename_i hnot
        rw [keysOfMember_key hlist hnot, List.mem_singleton]

theorem Json.mem_keysOfMembers (key : String) :
    ∀ ms : List (String × Json), key ∈ keysOfMembers ms ↔ ∃ m ∈ ms, MemberMentions key m.1 m.2
  | [] => by simp [keysOfMembers]
  | (word, j) :: ms => by
    simp only [keysOfMembers, List.mem_append, mem_keysOfMember key word j,
      mem_keysOfMembers key ms, List.mem_cons, exists_eq_or_imp]

end

/-- The keys that are gathered are those that the document mentions. -/
theorem Detection.mem_keysOf {limits : FilterLimits} {json : Json} {keys : List String}
    (h : keysOf limits json = .ok keys) (key : String) : key ∈ keys ↔ json.Mentions key := by
  obtain ⟨-, rfl⟩ := keysOf_eq_ok.1 h
  rw [List.mem_eraseDups, Json.mem_keys]

/-! ## Gathering follows reading -/

namespace FilterDocument

open Detection

variable {registry : Registry} {limits : FilterLimits} {entity : Entity}

/-- A gatherer that gets through every document that a reader gets through. -/
def Follows (gather : Gatherer) (read : PartReader Filter) : Prop :=
  ∀ json count p, read json count = .ok p → ∀ keys, ∃ keys', gather json keys = .ok keys'

section

variable {gather : Gatherer} {read : PartReader Filter} (hfollows : Follows gather read)

include hfollows

theorem gatherItems_follows {word other : String} {js : List Json} {count : Nat}
    {p : List Filter × Nat} (h : readItems read word js count = .ok p) (keys : List String) :
    ∃ keys', gatherItems gather other js keys = .ok keys' := by
  induction js generalizing count p keys with
  | nil => exact ⟨keys, rfl⟩
  | cons j js ih =>
    unfold readItems at h
    unfold gatherItems
    split at h
    · cases h
    · rename_i hobject
      rw [if_neg hobject]
      simp only [bind_eq_ok] at h
      obtain ⟨q, hq, r, hr, -⟩ := h
      obtain ⟨between, hfirst⟩ := hfollows j count q hq keys
      obtain ⟨keys', hrest⟩ := ih hr between
      exact ⟨keys', bind_eq_ok.2 ⟨between, hfirst, hrest⟩⟩

theorem gatherMember_follows_list {word key : String} (hkey : key = andWord ∨ key = orWord)
    {json : Json} {count : Nat} {p : List Filter × Nat}
    (h : readList read word json count = .ok p) (keys : List String) :
    ∃ keys', gatherMember gather key json keys = .ok keys' := by
  unfold readList at h
  rw [gatherMember_list hkey]
  split at h
  · exact gatherItems_follows hfollows h keys
  · cases h

theorem gatherMember_follows_negated {json : Json} {count : Nat} {p : Filter × Nat}
    (h : readNegated read json count = .ok p) (keys : List String) :
    ∃ keys', gatherMember gather notWord json keys = .ok keys' := by
  unfold readNegated at h
  rw [gatherMember_negation]
  split at h
  · rename_i hobject
    rw [if_pos hobject]
    exact hfollows json count p h keys
  · cases h

end

section

variable {gather : Gatherer} {read : Entity → PartReader Filter}
  (hfollows : Follows gather (read entity))

include hfollows

theorem gatherMember_follows {key : String} {json : Json} {count : Nat} {p : Entry × Nat}
    (h : readEntry registry limits read entity key json count = .ok p) (keys : List String) :
    ∃ keys', gatherMember gather key json keys = .ok keys' := by
  unfold readEntry at h
  split at h
  · rename_i hand
    obtain ⟨q, hq, -⟩ := map_eq_ok.1 h
    exact gatherMember_follows_list hfollows (Or.inl hand) hq keys
  · rename_i hand
    split at h
    · rename_i hor
      obtain ⟨q, hq, -⟩ := map_eq_ok.1 h
      exact gatherMember_follows_list hfollows (Or.inr hor) hq keys
    · rename_i hor
      split at h
      · rename_i hnot
        subst hnot
        obtain ⟨q, hq, -⟩ := map_eq_ok.1 h
        exact gatherMember_follows_negated hfollows hq keys
      · rename_i hnot
        -- a key that is no logical word is gathered whatever its value
        exact ⟨_, gatherMember_key (not_or.2 ⟨hand, hor⟩) hnot⟩

theorem gatherMembers_follows {ms : List (String × Json)} {count : Nat} {p : List Entry × Nat}
    (h : readEntries registry limits read entity ms count = .ok p) (keys : List String) :
    ∃ keys', gatherMembers gather ms keys = .ok keys' := by
  induction ms generalizing count p keys with
  | nil => exact ⟨keys, rfl⟩
  | cons m ms ih =>
    obtain ⟨key, j⟩ := m
    obtain ⟨q, hq, h⟩ := bind_eq_ok.1 h
    obtain ⟨r, hr, -⟩ := bind_eq_ok.1 h
    obtain ⟨between, hfirst⟩ := gatherMember_follows hfollows hq keys
    obtain ⟨keys', hrest⟩ := ih hr between
    exact ⟨keys', bind_eq_ok.2 ⟨between, hfirst, hrest⟩⟩

end

/-- The keys of a document are gathered at every level at which it is read. -/
theorem gatherKeys_follows (registry : Registry) (limits : FilterLimits) (levels : Nat)
    (entity : Entity) :
    Follows (gatherKeys limits levels) (readFilter registry limits levels entity) := by
  induction levels with
  | zero =>
    intro json count p h
    cases h
  | succ levels ih =>
    intro json count p h keys
    cases json with
    | object members =>
      rw [readFilter_object] at h
      obtain ⟨q, hq, -⟩ := map_eq_ok.1 h
      exact gatherMembers_follows ih hq keys
    | _ => cases h

end FilterDocument

/-! ## The entity that is chosen -/

/-- The errors that lie in the shape of a document: it is no object, an operand of a logical word is
malformed, or it is nested too deeply. -/
def FilterError.IsShapeFault : FilterError → Prop
  | .malformedFilter (.notAnObject _) => True
  | .malformedLogical _ _ => True
  | .tooComplex (.depth _) => True
  | _ => False

namespace Detection

variable {keys : List String} {entities : List Entity} {entity : Entity}

theorem mem_candidates {code : String} :
    code ∈ candidates keys entities ↔
      ∃ e ∈ entities, (∀ key ∈ keys, e.hasMember key = true) ∧ e.code = code := by
  simp [candidates, and_assoc]

/-- An entity that has every key is chosen, or it is one of several such entities. -/
theorem choose_of_mem_candidates (h : entity.code ∈ candidates keys entities) :
    (candidates keys entities = [entity.code] ∧ choose keys entities = .ok entity.code) ∨
      choose keys entities = .error (.ambiguousEntity (candidates keys entities)) := by
  unfold choose
  split
  · rename_i code hone
    rw [hone, List.mem_singleton] at h
    rw [h]
    exact Or.inl ⟨hone, rfl⟩
  · rename_i hnone
    simp [hnone] at h
  · exact Or.inr rfl

/-- Once the keys are gathered, the shape of a document is not at fault. -/
theorem choose_not_shapeFault {error : FilterError} (h : choose keys entities = .error error) :
    ¬error.IsShapeFault := by
  unfold choose at h
  split at h
  · cases h
  · split at h
    · cases h
      exact not_false
    · cases h
      exact not_false
  · cases h
    exact not_false

end Detection

/-! ## Reading without an entity -/

namespace Filter

variable {registry : Registry} {limits : FilterLimits} {code : String} {entity : Entity}
  {json : Json} {filter : Filter}

/-- The keys of a filter of some entity are gathered under the limits under which it is read. -/
theorem keysOf_of_ofJson (hentity : registry.find? code = some entity)
    (h : ofJson registry limits (some code) json = .ok filter) :
    ∃ keys, Detection.keysOf limits json = .ok keys := by
  obtain ⟨p, hp, -⟩ := (ofJson_eq_ok hentity).1 h
  exact FilterDocument.gatherKeys_follows registry limits _ entity json 0 p hp []

theorem exists_entity_of_ofJson (h : ofJson registry limits (some code) json = .ok filter) :
    ∃ entity, registry.find? code = some entity := by
  obtain ⟨_, hcode, h⟩ := bind_eq_ok.1 h
  cases hcode
  obtain ⟨entity, hentity, -⟩ := bind_eq_ok.1 h
  exact ⟨entity, Registry.lookup_eq_ok.1 hentity⟩

/-- Once its keys are gathered, what is left of detection is to choose an entity. -/
theorem detect_eq_choose {keys : List String} (hkeys : Detection.keysOf limits json = .ok keys) :
    registry.detect limits json = Detection.choose keys registry.toList := by
  unfold Registry.detect
  rw [hkeys]
  rfl

/-- The entities that explain a document are candidates. -/
theorem mem_candidates_of_explains {keys : List String}
    (hkeys : Detection.keysOf limits json = .ok keys) (hmem : entity ∈ registry.toList)
    (hexplains : entity.Explains json) :
    entity.code ∈ Detection.candidates keys registry.toList :=
  Detection.mem_candidates.2
    ⟨entity, hmem, fun key hkey => hexplains key ((Detection.mem_keysOf hkeys key).1 hkey), rfl⟩

/-- Detection chooses the entity for which a document is a filter, or cannot decide between it and
others. -/
theorem detect_of_ofJson (hentity : registry.find? code = some entity)
    (h : ofJson registry limits (some code) json = .ok filter) :
    (registry.detect limits json = .ok code ∧
      ∀ other ∈ registry.toList, other.Explains json → other = entity) ∨
    ∃ codes, registry.detect limits json = .error (.ambiguousEntity codes) ∧ code ∈ codes := by
  obtain ⟨keys, hkeys⟩ := keysOf_of_ofJson hentity h
  obtain rfl : entity.code = code := Registry.code_of_find? hentity
  have hcandidate := mem_candidates_of_explains hkeys (Registry.mem_toList_of_find? hentity)
    (valid_of_ofJson hentity h).explains
  rw [detect_eq_choose hkeys]
  rcases Detection.choose_of_mem_candidates hcandidate with ⟨hone, hchosen⟩ | hambiguous
  · refine .inl ⟨hchosen, fun other hother hothers => ?_⟩
    have hcandidate' := mem_candidates_of_explains hkeys hother hothers
    rw [hone, List.mem_singleton] at hcandidate'
    exact Registry.eq_of_code (Registry.mem_toList_of_find? hentity) hother hcandidate'
  · exact .inr ⟨_, hambiguous, hcandidate⟩

/-- Detection agrees with reading for a given entity. What is read as a filter of an entity is read
as the same filter without naming the entity, when no other entity explains its keys, or else the
entity is one of those between which detection cannot decide. A document whose shape stops
detection is a filter of no registered entity. -/
theorem ofJson_detected (registry : Registry) (limits : FilterLimits) (json : Json) :
    (∀ code filter, ofJson registry limits (some code) json = .ok filter →
      (ofJson registry limits none json = .ok filter ∧
        ∃ entity, registry.find? code = some entity ∧ entity.Explains json ∧
          ∀ other ∈ registry.toList, other.Explains json → other = entity) ∨
      ∃ codes, ofJson registry limits none json = .error (.ambiguousEntity codes) ∧ code ∈ codes) ∧
    (∀ error, registry.detect limits json = .error error → error.IsShapeFault →
      ∀ code entity, registry.find? code = some entity →
        ∃ error', ofJson registry limits (some code) json = .error error') := by
  constructor
  · intro code filter h
    obtain ⟨entity, hentity⟩ := exists_entity_of_ofJson h
    rcases detect_of_ofJson hentity h with ⟨hdetect, halone⟩ | ⟨codes, hdetect, hcode⟩
    · -- detection answers with the code, and reading goes on as for the code
      have hread : ofJson registry limits none json = ofJson registry limits (some code) json := by
        unfold ofJson
        rw [hdetect]
      exact .inl ⟨hread.trans h, entity, hentity, (valid_of_ofJson hentity h).explains, halone⟩
    · refine .inr ⟨codes, ?_, hcode⟩
      unfold ofJson
      rw [hdetect]
      rfl
  · intro error hdetect hshape code entity hentity
    cases h : ofJson registry limits (some code) json with
    | error error' => exact ⟨error', rfl⟩
    | ok filter =>
      -- the keys of a filter are gathered, and what is left to go wrong is no fault of its shape
      obtain ⟨keys, hkeys⟩ := keysOf_of_ofJson hentity h
      rw [detect_eq_choose hkeys] at hdetect
      exact absurd hshape (Detection.choose_not_shapeFault hdetect)

end Filter

/-- Rows of a collection that is owned: both kinds of statistics on cards have such rows. -/
def Catalog.ownedDocument : Json :=
  .object [("collection", .object [("eq", .text "OWNED")])]

/-- A conjunction of something that is no filter. -/
def Catalog.malformedDocument : Json :=
  .object [("and", .array [.integer 1])]

theorem Filter.ofJson_detected_catalog :
    (∃ filter, ofJson Catalog.registry .default none Catalog.rareDecksDocument = .ok filter) ∧
    (∃ codes, ofJson Catalog.registry .default none Catalog.ownedDocument =
      .error (.ambiguousEntity codes) ∧ "card_users_stats" ∈ codes) ∧
    (∃ error, ofJson Catalog.registry .default (some "deck") Catalog.malformedDocument =
      .error error) := by
  refine ⟨?_, ?_, ?_⟩
  · obtain ⟨filter, hread⟩ : ∃ filter, ofJson Catalog.registry .default (some "deck")
        Catalog.rareDecksDocument = .ok filter := ⟨_, rfl⟩
    rcases (ofJson_detected Catalog.registry .default _).1 "deck" filter hread with h | h
    · exact ⟨filter, h.1⟩
    · obtain ⟨codes, hambiguous, -⟩ := h
      have hdetected : ∃ filter, ofJson Catalog.registry .default none
          Catalog.rareDecksDocument = .ok filter := ⟨_, rfl⟩
      simp [hambiguous] at hdetected
  · obtain ⟨filter, hread⟩ : ∃ filter, ofJson Catalog.registry .default (some "card_users_stats")
        Catalog.ownedDocument = .ok filter := ⟨_, rfl⟩
    rcases (ofJson_detected Catalog.registry .default _).1 _ filter hread with h | h
    · have hambiguous : ofJson Catalog.registry .default none Catalog.ownedDocument =
          .error (.ambiguousEntity ["card_users_stats", "summary_card_users"]) := rfl
      cases hambiguous.symm.trans h.1
    · exact h
  · have hmalformed : Catalog.registry.detect .default Catalog.malformedDocument =
        .error (.malformedLogical "and" .itemNotAnObject) := rfl
    have hdeck : Catalog.registry.find? "deck" = some Catalog.deck := rfl
    exact (ofJson_detected Catalog.registry .default _).2 _ hmalformed trivial "deck" _ hdeck

end FilterQuery
