import FilterQuery.Proofs.Schema.Declaring

/-!
# Registering

A registry is filled by calls of `Registry.register`, some of which may fail. `Registry.calls` is
the registry after any calls and `Registry.successful` the calls among them that succeed. What
holds all along is `Registry.Holds`: the registry holds the entities of these calls, and nothing
else. A call that succeeds keeps it (`Holds.concat`), so every run does (`Holds.calls`); it says
what every lookup answers (`Holds.answers`), and it determines the registry (`Holds.unique`), in
whatever order the calls were made.
-/

namespace FilterQuery

/-! ## Maps with the same answers -/

/-- A map is determined by what it answers. -/
theorem NameMap.ext_find? {α : Type} {m m' : NameMap α}
    (h : ∀ name, m.find? name = m'.find? name) : m = m' := by
  have hnodup (m : NameMap α) : m.entries.Nodup := by
    refine m.ordered.imp ?_
    rintro a _ hlt rfl
    exact String.lt_irrefl a.1 hlt
  have hmem (e : String × α) : e ∈ m.entries ↔ e ∈ m'.entries := by
    obtain ⟨name, value⟩ := e
    rw [← NameMap.find?_eq_some, ← NameMap.find?_eq_some, h]
  have hperm : m.entries.Perm m'.entries :=
    (List.perm_ext_iff_of_nodup (hnodup m) (hnodup m')).2 hmem
  refine NameMap.ext (hperm.eq_of_pairwise ?_ m.ordered m'.ordered)
  intro a b _ _ hab hba
  exact absurd (String.lt_trans hab hba) (String.lt_irrefl _)

namespace Registry

/-- A registry is determined by the entities that are found in it. -/
theorem ext_find? {r r' : Registry} (h : ∀ code, r.find? code = r'.find? code) : r = r' := by
  cases r
  cases r'
  congr
  exact NameMap.ext_find? h

/-! ## Calls -/

/-- The registry after one call of `Registry.register` and the outcome of the call. -/
def call (r : Registry) (b : Blueprint) : Registry × Except FilterError Unit :=
  r.registerAll [b.entity]

/-- The registry after calls made one after another, whether they succeed or not. -/
def calls (r : Registry) : List Blueprint → Registry
  | [] => r
  | b :: bs => (r.call b).1.calls bs

/-- The calls that succeed, in their order. -/
def successful (r : Registry) : List Blueprint → List Blueprint
  | [] => []
  | b :: bs =>
    match r.call b with
    | (after, .ok ()) => b :: after.successful bs
    | (after, .error _) => after.successful bs

/-- A call succeeds when the code is new and the declarations are sound; the registry is what it
was, with the entity when the call succeeds. -/
theorem call_cases (r : Registry) (b : Blueprint) :
    (∃ after, r.call b = (after, .ok ()) ∧ r.find? b.code = none ∧ b.Sound ∧
      ∀ code, after.find? code = if b.code = code then some b.entity else r.find? code) ∨
    (∃ error, r.call b = (r, .error error) ∧ ¬(r.find? b.code = none ∧ b.Sound)) := by
  rw [← Blueprint.isSound_entity, call, registerAll, register, NameMap.contains,
    Blueprint.code_entity]
  by_cases hcode : r.find? b.code = none
  · have hnew : ¬(r.entities.find? b.code).isSome = true := by simpa [find?] using hcode
    by_cases hnames : b.entity.repeated = []
    · by_cases hkey : b.entity.primaryKey = []
      · refine Or.inr ⟨.invalidMetadata b.code .emptyPrimaryKey, ?_, fun h => h.2.2 hkey⟩
        simp [hnew, hnames, hkey]
      · refine Or.inl ⟨r.insert b.entity ⟨hnames, hkey⟩, ?_, hcode, ⟨hnames, hkey⟩, ?_⟩
        · simp [hnew, hnames, hkey, registerAll]
        · intro code
          show (r.entities.insert b.entity.code b.entity).find? code = _
          rw [NameMap.find?_insert, Blueprint.code_entity]
          rfl
    · refine Or.inr ⟨.invalidMetadata b.code (.repeatedName (b.entity.repeated.headD "")), ?_,
        fun h => hnames h.2.1⟩
      simp [hnew, hnames]
  · have hknown : (r.entities.find? b.code).isSome = true := by
      simpa [find?, Option.isSome_iff_ne_none] using hcode
    exact Or.inr ⟨.duplicateEntity b.code, by simp [hknown], fun h => hcode h.1⟩

/-! ## What a registry holds -/

/-- A registry holds the entities that are declared, and nothing else. -/
structure Holds (r : Registry) (declared : List Blueprint) : Prop where
  /-- No two of them have one code. -/
  codes : (declared.map Blueprint.code).Nodup
  /-- Their declarations are sound. -/
  sound : ∀ b ∈ declared, b.Sound
  /-- They are found under their codes. -/
  find?_eq_some : ∀ code e, r.find? code = some e ↔ ∃ b ∈ declared, b.code = code ∧ b.entity = e

namespace Holds

variable {r : Registry} {declared : List Blueprint} {b : Blueprint}

theorem empty : Holds empty [] :=
  ⟨List.nodup_nil, by simp, by simp [find?, Registry.empty]⟩

theorem find?_of_mem (h : r.Holds declared) (hb : b ∈ declared) :
    r.find? b.code = some b.entity :=
  (h.find?_eq_some _ _).2 ⟨b, hb, rfl, rfl⟩

theorem find?_eq_none (h : r.Holds declared) {code : String} :
    r.find? code = none ↔ ∀ b ∈ declared, b.code ≠ code := by
  constructor
  · intro hnone b hb hcode
    rw [← hcode, h.find?_of_mem hb] at hnone
    cases hnone
  · intro hother
    cases hfind : r.find? code with
    | none => rfl
    | some e =>
      obtain ⟨b, hb, hcode, _⟩ := (h.find?_eq_some _ _).1 hfind
      exact absurd hcode (hother b hb)

/-- What a registry holds determines it, whatever the order. -/
theorem unique {r' : Registry} {declared' : List Blueprint} (h : r.Holds declared)
    (h' : r'.Holds declared') (hmem : ∀ b, b ∈ declared ↔ b ∈ declared') : r = r' := by
  refine ext_find? fun code => Option.ext fun e => ?_
  rw [h.find?_eq_some, h'.find?_eq_some]
  simp only [hmem]

/-- A call that succeeds adds its entity to what a registry holds. -/
theorem concat {after : Registry} (h : r.Holds declared) (hnew : r.find? b.code = none)
    (hsound : b.Sound)
    (hafter : ∀ code, after.find? code = if b.code = code then some b.entity else r.find? code) :
    after.Holds (declared ++ [b]) where
  codes := by
    rw [List.map_append, List.map_singleton, List.nodup_append]
    refine ⟨h.codes, List.pairwise_singleton _ _, ?_⟩
    intro code hcode other hother heq
    obtain ⟨first, hfirst, rfl⟩ := List.mem_map.1 hcode
    exact h.find?_eq_none.1 hnew first hfirst (heq.trans (List.mem_singleton.1 hother))
  sound := by
    intro other hother
    rcases List.mem_append.1 hother with hother | hother
    · exact h.sound other hother
    · exact List.mem_singleton.1 hother ▸ hsound
  find?_eq_some := by
    intro code e
    rw [hafter]
    by_cases hcode : b.code = code
    · have hold : ¬∃ other ∈ declared, other.code = code ∧ other.entity = e := by
        rintro ⟨other, hother, heq, _⟩
        exact h.find?_eq_none.1 hnew other hother (heq.trans hcode.symm)
      rw [if_pos hcode]
      simp only [List.mem_append, List.mem_singleton, or_and_right, exists_or, hold, false_or,
        exists_eq_left, hcode, true_and, Option.some.injEq]
    · rw [if_neg hcode, h.find?_eq_some]
      simp [or_and_right, exists_or, hcode]

/-- What is held after any calls. -/
theorem calls (h : r.Holds declared) (bs : List Blueprint) :
    (r.calls bs).Holds (declared ++ r.successful bs) := by
  induction bs generalizing r declared with
  | nil => simpa [Registry.calls, successful] using h
  | cons b bs ih =>
    rw [Registry.calls, successful]
    rcases r.call_cases b with ⟨after, hcall, hnew, hsound, hafter⟩ | ⟨error, hcall, _⟩
    · have hrest := ih (h.concat hnew hsound hafter)
      rw [List.append_assoc, List.singleton_append] at hrest
      simpa only [hcall] using hrest
    · simpa only [hcall] using ih h

/-- Calls with new codes that differ, and with sound declarations, all succeed. -/
theorem successful_eq (h : r.Holds declared) {bs : List Blueprint}
    (hcodes : ((declared ++ bs).map Blueprint.code).Nodup) (hsound : ∀ b ∈ bs, b.Sound) :
    r.successful bs = bs := by
  induction bs generalizing r declared with
  | nil => rfl
  | cons b bs ih =>
    rw [successful]
    rcases r.call_cases b with ⟨after, hcall, hnew, hb, hafter⟩ | ⟨error, hcall, hfail⟩
    · have hrest : after.successful bs = bs := by
        refine ih (h.concat hnew hb hafter) ?_ fun other hother =>
          hsound other (List.mem_cons_of_mem _ hother)
        rwa [List.append_assoc, List.singleton_append]
      rw [hcall]
      exact congrArg (b :: ·) hrest
    · refine absurd ⟨h.find?_eq_none.2 ?_, hsound b List.mem_cons_self⟩ hfail
      intro other hother heq
      rw [List.map_append, List.nodup_append] at hcodes
      exact hcodes.2.2 _ (List.mem_map_of_mem hother) _
        (List.mem_map_of_mem List.mem_cons_self) heq

end Holds

/-! ## What a registry answers -/

/-- A registry answers every lookup by what is declared. -/
structure Answers (r : Registry) (declared : List Blueprint) : Prop where
  /-- The entities are those that are declared. -/
  lookup : ∀ code e, r.lookup code = .ok e ↔ ∃ b ∈ declared, b.code = code ∧ b.entity = e
  /-- Any other code is unknown to every lookup. -/
  unknown : ∀ code, (∀ b ∈ declared, b.code ≠ code) → r.lookup code = .error (.unknownEntity code) ∧
    ∀ name, r.lookupField code name = .error (.unknownEntity code) ∧
      r.relation? code name = none ∧ r.lookupRelation code name = .error (.unknownEntity code)
  /-- The fields of an entity are those that it declares. -/
  field : ∀ b ∈ declared, ∀ name field,
    r.lookupField b.code name = .ok field ↔ (name, .field field) ∈ b.members
  /-- It has no other field. -/
  noField : ∀ b ∈ declared, ∀ name, (∀ field, (name, .field field) ∉ b.members) →
    r.lookupField b.code name = .error (.unknownField b.code name)
  /-- The relations of an entity are those that it declares. -/
  relation : ∀ b ∈ declared, ∀ name relation,
    (r.relation? b.code name = some relation ↔ (name, .relation relation) ∈ b.members) ∧
      (r.lookupRelation b.code name = .ok relation ↔ (name, .relation relation) ∈ b.members)
  /-- It has no other relation. -/
  noRelation : ∀ b ∈ declared, ∀ name, (∀ relation, (name, .relation relation) ∉ b.members) →
    r.relation? b.code name = none ∧
      r.lookupRelation b.code name = .error (.unknownRelation b.code name)
  /-- The names of an entity are those of its fields and relations. -/
  hasMember : ∀ b ∈ declared, ∀ name,
    b.entity.hasMember name = true ↔ ∃ member, (name, member) ∈ b.members

variable {r : Registry} {declared : List Blueprint} {b : Blueprint}

theorem lookupField_of_find? {e : Entity} {code : String} (h : r.find? code = some e)
    (name : String) :
    r.lookupField code name =
      (e.field? name).elim (.error (.unknownField code name)) .ok := by
  simp only [lookupField, lookup, h, bind, Except.bind]
  cases e.field? name <;> rfl

theorem lookupRelation_of_find? {e : Entity} {code : String} (h : r.find? code = some e)
    (name : String) :
    r.lookupRelation code name =
      (e.relation? name).elim (.error (.unknownRelation code name)) .ok := by
  simp only [lookupRelation, lookup, h, bind, Except.bind]
  cases e.relation? name <;> rfl

/-- What a registry answers is what it holds. -/
theorem Holds.answers (h : r.Holds declared) : r.Answers declared where
  lookup code e := lookup_eq_ok.trans (h.find?_eq_some code e)
  unknown code hother := by
    have hnone : r.find? code = none := h.find?_eq_none.2 hother
    have hlookup : r.lookup code = .error (.unknownEntity code) := by rw [Registry.lookup, hnone]
    refine ⟨hlookup, fun name => ⟨?_, ?_, ?_⟩⟩
    · rw [lookupField, hlookup]
      rfl
    · rw [relation?, hnone]
      rfl
    · rw [lookupRelation, hlookup]
      rfl
  field b hb name field := by
    rw [lookupField_of_find? (h.find?_of_mem hb), ← Blueprint.field?_entity (h.sound b hb)]
    cases b.entity.field? name <;> simp
  noField b hb name hno := by
    have hnone : b.entity.field? name = none := Option.eq_none_iff_forall_ne_some.2
      fun field hfield => hno field ((Blueprint.field?_entity (h.sound b hb)).1 hfield)
    rw [lookupField_of_find? (h.find?_of_mem hb), hnone]
    rfl
  relation b hb name relation := by
    have hrelation : r.relation? b.code name = some relation ↔
        (name, .relation relation) ∈ b.members := by
      rw [relation?, h.find?_of_mem hb, ← Blueprint.relation?_entity (h.sound b hb)]
      rfl
    exact ⟨hrelation, lookupRelation_eq_ok.trans hrelation⟩
  noRelation b hb name hno := by
    have hnone : b.entity.relation? name = none := Option.eq_none_iff_forall_ne_some.2
      fun relation hrel => hno relation ((Blueprint.relation?_entity (h.sound b hb)).1 hrel)
    refine ⟨?_, ?_⟩
    · rw [relation?, h.find?_of_mem hb]
      exact hnone
    · rw [lookupRelation_of_find? (h.find?_of_mem hb), hnone]
      rfl
  hasMember b hb name := Blueprint.hasMember_entity (h.sound b hb)

end Registry

theorem Entity.field?_of_mem {e : Entity} {name : String} {field : Field}
    (h : (name, field) ∈ e.fields) : e.field? name = some field := by
  obtain ⟨⟨other, member⟩, hmem, heq⟩ := List.mem_filterMap.1 h
  cases member with
  | relation r => cases heq
  | field f =>
    cases heq
    rw [Entity.field?, NameMap.find?_eq_some.2 hmem]

theorem Entity.relation?_of_mem {e : Entity} {name : String} {relation : Relation}
    (h : (name, relation) ∈ e.relations) : e.relation? name = some relation := by
  obtain ⟨⟨other, member⟩, hmem, heq⟩ := List.mem_filterMap.1 h
  cases member with
  | field f => cases heq
  | relation r =>
    cases heq
    rw [Entity.relation?, NameMap.find?_eq_some.2 hmem]

/-- No name is both that of a field and that of a relation. -/
theorem Entity.disjoint_fields_relations (e : Entity) {name : String}
    (hfield : name ∈ e.fields.map Prod.fst) : name ∉ e.relations.map Prod.fst := by
  intro hrelation
  obtain ⟨⟨_, field⟩, hf, rfl⟩ := List.mem_map.1 hfield
  obtain ⟨⟨_, relation⟩, hr, rfl⟩ := List.mem_map.1 hrelation
  have hnone := Entity.field?_of_relation? (Entity.relation?_of_mem hr)
  rw [Entity.field?_of_mem hf] at hnone
  cases hnone

namespace Registry

/-- **A registry holds only what was declared.** After any calls, a further call succeeds exactly
when its code is new, its names are declared once and it has a primary key, and a call that fails
leaves the registry as it is. Every entity stands under its own code, with a primary key and with
fields and relations of different names, which were declared so, and every lookup answers by the
declarations of the calls that succeeded. These calls, made in any other order, all succeed and lead
to the same registry. -/
theorem calls_hold (bs : List Blueprint) :
    let r := empty.calls bs
    let declared := empty.successful bs
    (∀ b, (r.call b).2 = .ok () ↔
      r.find? b.code = none ∧ (b.members.map Prod.fst).Nodup ∧ b.key ≠ []) ∧
    (∀ b error, (r.call b).2 = .error error → (r.call b).1 = r) ∧
    (∀ code e, r.find? code = some e → e.code = code ∧ e.primaryKey ≠ [] ∧
      ∀ name ∈ e.fields.map Prod.fst, name ∉ e.relations.map Prod.fst) ∧
    (∀ b ∈ declared, ∀ name field relation,
      (name, .field field) ∈ b.members → (name, .relation relation) ∉ b.members) ∧
    r.Answers declared ∧
    (r.toList.Pairwise (fun a b => a.code < b.code) ∧
      ∀ e, e ∈ r.toList ↔ ∃ b ∈ declared, b.entity = e) ∧
    (∀ other : List Blueprint, other.Perm declared →
      empty.successful other = other ∧ empty.calls other = r) := by
  intro r declared
  have hholds : r.Holds declared := Holds.empty.calls bs
  refine ⟨?_, ?_, ?_, ?_, hholds.answers, ⟨r.pairwise_toList, ?_⟩, ?_⟩
  · intro b
    rcases r.call_cases b with ⟨after, hcall, hnew, hsound, _⟩ | ⟨error, hcall, hfail⟩
    · rw [hcall]
      exact iff_of_true rfl ⟨hnew, hsound⟩
    · rw [hcall]
      exact iff_of_false (fun h => by cases h) hfail
  · intro b error herror
    rcases r.call_cases b with ⟨after, hcall, _⟩ | ⟨_, hcall, _⟩
    · rw [hcall] at herror
      cases herror
    · rw [hcall]
  · intro code e he
    obtain ⟨hcode, hsound⟩ := r.sound _ (NameMap.mem_of_findEntry he)
    exact ⟨hcode, hsound.2, fun name => e.disjoint_fields_relations⟩
  · exact fun b hb name field relation => (hholds.sound b hb).disjoint
  · intro e
    constructor
    · intro hmem
      obtain ⟨b, hb, _, hentity⟩ := (hholds.find?_eq_some _ _).1 (find?_of_mem_toList hmem)
      exact ⟨b, hb, hentity⟩
    · rintro ⟨b, hb, rfl⟩
      exact mem_toList_of_find? (hholds.find?_of_mem hb)
  · intro other hperm
    have hsuccessful : empty.successful other = other :=
      Holds.empty.successful_eq ((hperm.map Blueprint.code).nodup_iff.2 hholds.codes)
        fun b hb => hholds.sound b (hperm.subset hb)
    have hother : (empty.calls other).Holds other := by
      simpa only [hsuccessful, List.nil_append] using Holds.empty.calls other
    exact ⟨hsuccessful, hother.unique hholds fun b => hperm.mem_iff⟩

end Registry

namespace Blueprint

/-- A card with a title, which is stored as its name. -/
def titledCard : Blueprint :=
  ⟨"card", "cards", [.field "id" .uuid, .mappedField "title" "name" .text, .key ["id"]]⟩

/-- A deck whose cards are both counted and listed under one name. -/
def clashingDeck : Blueprint :=
  ⟨"deck", "decks", [.key ["id"], .field "cards" .integer,
    .relation "cards" ⟨"card", .many, [("id", "deck_id")]⟩]⟩

end Blueprint

/-- Of a deck with a clash of names and a card that is registered twice, only the card is held, and
registering the deck once more changes nothing. -/
theorem Registry.calls_hold_titledCard :
    let r := empty.calls [.clashingDeck, .titledCard, .titledCard]
    empty.successful [.clashingDeck, .titledCard, .titledCard] = [.titledCard] ∧
      r.lookupField "card" "title" = .ok ⟨"name", .text⟩ ∧
      (r.call .titledCard).2 ≠ .ok () ∧ (r.call .clashingDeck).1 = r := by
  intro r
  have hheld : empty.successful [.clashingDeck, .titledCard, .titledCard] = [.titledCard] := rfl
  obtain ⟨hok, herror, -, -, hanswers, -⟩ := calls_hold [.clashingDeck, .titledCard, .titledCard]
  rw [hheld] at hanswers
  have htitle : ("title", .field ⟨"name", .text⟩) ∈ Blueprint.titledCard.members := by
    simp [Blueprint.members, Blueprint.titledCard, Declaration.member?]
  refine ⟨hheld, (hanswers.field _ List.mem_cons_self "title" _).2 htitle, fun h => ?_, ?_⟩
  · exact absurd ((hok _).1 h).1 (by decide)
  · exact herror .clashingDeck _ rfl

end FilterQuery
