import FilterQuery.Proofs.Filter.Entries
import FilterQuery.Proofs.Filter.Operands
import FilterQuery.Proofs.Schema.Catalog

/-!
# The documents that are read

The readers of documents and their grammar agree. `Accepts` says of a step of reading that it
succeeds on what is valid and on nothing else, as far as the limits leave room; it is closed under
the ways in which readers are put together. The readers are taken one by one, each for a reader of
the filters inside that accepts them; the levels of nesting tie them together
(`FilterDocument.readFilter_accepts`).

The room that a document needs is bounded by its depth and by the number of its members, so that
for every document there are limits under which it is read if and only if it is a filter of the
entity (`Filter.ofJson_accepts_iff`). What the limits cut off is never read as something else: under
any limits, only filters of the grammar are read (`Filter.valid_of_ofJson`).
-/

namespace FilterQuery

/-! ## Accepting -/

/-- A step of reading that starts after a number of conditions and has some levels of nesting left.
It gives a value only where the document is valid, and gives one wherever the document is valid and
its depth and its size are within the limits. The size bounds the conditions that are counted. -/
structure Accepts {α : Type} (limits : FilterLimits) (levels : Nat) (valid : Prop)
    (depth size count : Nat) (x : Except FilterError (α × Nat)) : Prop where
  /-- What is read is valid. -/
  sound : ∀ p, x = .ok p → valid ∧ p.2 ≤ count + size
  /-- What is valid is read. -/
  complete : valid → depth ≤ levels → count + size ≤ limits.maxConditions → ∃ p, x = .ok p

namespace Accepts

variable {α β : Type} {limits : FilterLimits} {levels : Nat} {valid valid' : Prop}
  {depth depth' size size' count : Nat} {x : Except FilterError (α × Nat)}

theorem ok {a : α} (h : valid) :
    Accepts limits levels valid depth size count (.ok (a, count)) where
  sound p hp := ⟨h, by cases hp; exact Nat.le_add_right count size⟩
  complete _ _ _ := ⟨_, rfl⟩

theorem error {e : FilterError} (h : ¬valid) :
    Accepts (α := α) limits levels valid depth size count (.error e) where
  sound _ hp := nomatch hp
  complete hvalid := absurd hvalid h

theorem iff (h : Accepts limits levels valid depth size count x) (hvalid : valid ↔ valid') :
    Accepts limits levels valid' depth size count x where
  sound p hp := ⟨hvalid.1 (h.sound p hp).1, (h.sound p hp).2⟩
  complete hv hd hs := h.complete (hvalid.2 hv) hd hs

/-- The measures may be taken too great. -/
theorem mono (h : Accepts limits levels valid depth size count x) (hdepth : depth ≤ depth')
    (hsize : size ≤ size') : Accepts limits levels valid depth' size' count x where
  sound p hp := by
    obtain ⟨hvalid, hcount⟩ := h.sound p hp
    exact ⟨hvalid, by omega⟩
  complete hv hd hs := h.complete hv (by omega) (by omega)

/-- One level of nesting more is left for an object around what is read. -/
theorem deeper (h : Accepts limits levels valid depth size count x) :
    Accepts limits (levels + 1) valid (depth + 1) size count x where
  sound := h.sound
  complete hv hd hs := h.complete hv (by omega) hs

theorem map {f : α × Nat → β × Nat} (h : Accepts limits levels valid depth size count x)
    (hf : ∀ p, (f p).2 = p.2) : Accepts limits levels valid depth size count (x.map f) where
  sound p hp := by
    obtain ⟨q, hq, rfl⟩ := map_eq_ok.1 hp
    rw [hf]
    exact h.sound q hq
  complete hv hd hs := by
    obtain ⟨q, hq⟩ := h.complete hv hd hs
    exact ⟨f q, map_eq_ok.2 ⟨q, hq, rfl⟩⟩

/-- What has been read is put into another form. -/
theorem yield {f : α × Nat → Except FilterError (β × Nat)}
    (h : Accepts limits levels valid depth size count x) (hf : ∀ p, ∃ b, f p = .ok (b, p.2)) :
    Accepts limits levels valid depth size count (x >>= f) where
  sound p hp := by
    obtain ⟨q, hq, hp⟩ := bind_eq_ok.1 hp
    obtain ⟨b, hb⟩ := hf q
    rw [hb] at hp
    cases hp
    exact h.sound q hq
  complete hv hd hs := by
    obtain ⟨q, hq⟩ := h.complete hv hd hs
    obtain ⟨b, hb⟩ := hf q
    exact ⟨(b, q.2), bind_eq_ok.2 ⟨q, hq, hb⟩⟩

/-- One step after another: both have to be valid, and the second one starts after the conditions
of the first. -/
theorem bind {f : α × Nat → Except FilterError (β × Nat)}
    (h : Accepts limits levels valid depth size count x)
    (hf : ∀ p, Accepts limits levels valid' depth' size' p.2 (f p)) :
    Accepts limits levels (valid ∧ valid') (max depth depth') (size + size') count (x >>= f) where
  sound p hp := by
    obtain ⟨q, hq, hp⟩ := bind_eq_ok.1 hp
    obtain ⟨hvalid, hcount⟩ := h.sound q hq
    obtain ⟨hvalid', hcount'⟩ := (hf q).sound p hp
    exact ⟨⟨hvalid, hvalid'⟩, by omega⟩
  complete hv hd hs := by
    obtain ⟨q, hq⟩ := h.complete hv.1 (by omega) (by omega)
    have hcount := (h.sound q hq).2
    obtain ⟨p, hp⟩ := (hf q).complete hv.2 (by omega) (by omega)
    exact ⟨p, bind_eq_ok.2 ⟨q, hq, hp⟩⟩

/-- A step that counts nothing comes first. -/
theorem step {y : Except FilterError β} {f : β → Except FilterError (α × Nat)}
    (hy : (∃ b, y = .ok b) ↔ valid)
    (hf : ∀ b, Accepts limits levels valid' depth size count (f b)) :
    Accepts limits levels (valid ∧ valid') depth size count (y >>= f) where
  sound p hp := by
    obtain ⟨b, hb, hp⟩ := bind_eq_ok.1 hp
    obtain ⟨hvalid, hcount⟩ := (hf b).sound p hp
    exact ⟨⟨hy.1 ⟨b, hb⟩, hvalid⟩, hcount⟩
  complete hv hd hs := by
    obtain ⟨b, hb⟩ := hy.2 hv.1
    obtain ⟨p, hp⟩ := (hf b).complete hv.2 hd hs
    exact ⟨p, bind_eq_ok.2 ⟨b, hb, hp⟩⟩

/-- A condition is counted first. -/
theorem counted {f : Nat → Except FilterError (α × Nat)}
    (hf : Accepts limits levels valid depth size (count + 1) (f (count + 1))) :
    Accepts limits levels valid depth (size + 1) count
      (FilterDocument.countCondition limits count >>= f) where
  sound p hp := by
    obtain ⟨n, hn, hp⟩ := bind_eq_ok.1 hp
    rw [FilterDocument.countCondition] at hn
    split at hn
    · cases hn
    · cases hn
      obtain ⟨hvalid, hcount⟩ := hf.sound p hp
      exact ⟨hvalid, by omega⟩
  complete hv hd hs := by
    obtain ⟨p, hp⟩ := hf.complete hv hd (by omega)
    refine ⟨p, bind_eq_ok.2 ⟨count + 1, ?_, hp⟩⟩
    rw [FilterDocument.countCondition, if_neg (by omega)]

end Accepts

/-! ## Logical words -/

namespace FilterDocument

variable {registry : Registry} {limits : FilterLimits} {levels : Nat} {entity : Entity}

/-- A reader that accepts the filters of an entity. -/
def AcceptsFilters (registry : Registry) (limits : FilterLimits) (levels : Nat) (entity : Entity)
    (read : PartReader Filter) : Prop :=
  ∀ json count, Accepts limits levels (ValidFilter registry entity json) json.depth
    json.memberCount count (read json count)

section

variable {read : PartReader Filter} (hread : AcceptsFilters registry limits levels entity read)

include hread

theorem readItems_accepts (word : String) (js : List Json) (count : Nat) :
    Accepts limits levels (∀ j ∈ js, ValidFilter registry entity j) (Json.depthOfItems js)
      (Json.countOfItems js) count (readItems read word js count) := by
  induction js generalizing count with
  | nil => exact .ok (by simp)
  | cons j js ih =>
    rw [readItems]
    split
    · rename_i hobject
      refine .error fun hvalid => ?_
      simp [(hvalid j List.mem_cons_self).isObject] at hobject
    · refine Accepts.iff ((hread j count).bind fun p => ?_) List.forall_mem_cons.symm
      exact (ih p.2).yield fun q => ⟨_, rfl⟩


theorem readList_accepts {key : String} (hkey : key = andWord ∨ key = orWord) (word : String)
    (json : Json) (count : Nat) :
    Accepts limits levels (ValidMember registry entity key json) json.depth json.memberCount count
      (readList read word json count) := by
  rw [validMember_list hkey]
  cases json with
  | array items => exact (readItems_accepts hread word items count).iff (by simp)
  | _ => exact .error (by simp)

theorem readNegated_accepts (json : Json) (count : Nat) :
    Accepts limits levels (ValidMember registry entity notWord json) json.depth json.memberCount
      count (readNegated read json count) := by
  rw [validMember_negation, readNegated]
  split
  · exact hread json count
  · rename_i hobject
    exact .error fun hvalid => hobject hvalid.isObject

end

/-! ## Fields -/

theorem readTests_accepts (name : String) (kind : ValueKind) (ms : List (String × Json))
    (count : Nat) :
    Accepts limits levels (∀ m ∈ ms, ValidTest kind m.1 m.2) 0 (Json.countOfMembers ms) count
      (readTests limits name kind ms count) := by
  induction ms generalizing count with
  | nil => exact .ok (by simp)
  | cons m ms ih =>
    obtain ⟨key, j⟩ := m
    rw [readTests, List.forall_mem_cons]
    refine Accepts.mono (.step (exists_test name) fun test => .counted <|
      (ih (count + 1)).yield fun q => ⟨_, rfl⟩) (Nat.le_refl 0) ?_
    rw [Json.countOfMembers]
    omega

theorem readField_accepts (name : String) (field : Field) (json : Json) (count : Nat) :
    Accepts limits levels (ValidField field.kind json) json.depth json.memberCount count
      (readField limits name field json count) := by
  unfold readField
  split
  · rename_i m ms
    refine ((readTests_accepts name field.kind (m :: ms) count).iff ?_).mono (Nat.zero_le _)
      (Nat.le_refl _)
    constructor
    · exact .tests (List.cons_ne_nil m ms)
    · rintro ⟨-, hvalid⟩
      exact hvalid
  · rename_i hother
    refine .error ?_
    rintro ⟨hnonempty, -⟩
    obtain ⟨m, ms, rfl⟩ := List.exists_cons_of_ne_nil hnonempty
    exact hother m ms rfl

/-! ## Relations -/

section

variable {target : Entity} {read : PartReader Filter}
  (hread : AcceptsFilters registry limits levels target read)

include hread

theorem readKeyword_accepts {key : String} {keyword : CollectionKeyword}
    (hkey : CollectionKeyword.ofName? key = some keyword) (relation : String) (json : Json)
    (count : Nat) :
    Accepts limits levels (ValidKeyword registry target key json) json.depth json.memberCount count
      (readKeyword read relation key keyword json count) := by
  cases keyword with
  | quantifier q =>
    rw [validKeyword_quantifier hkey]
    simp only [readKeyword]
    split
    · exact (hread json count).map fun _ => rfl
    · rename_i hobject
      exact .error fun hvalid => hobject hvalid.isObject
  | emptiness empty =>
    rw [validKeyword_emptiness hkey]
    cases json with
    | bool flag => exact .ok ⟨flag, rfl⟩
    | _ => exact .error (by simp)
  | size op =>
    rw [validKeyword_size hkey]
    cases json with
    | integer n =>
      simp only [readKeyword]
      split
      · rename_i hbounds
        exact .ok (by simpa [Json.IsCount] using hbounds)
      · rename_i hbounds
        exact .error (by simpa [Json.IsCount] using hbounds)
    | _ => exact .error (by simp [Json.IsCount])

theorem readKeywords_accepts (relation : String) (ms : List (String × Json))
    (hkeywords : ∀ m ∈ ms, isCollectionKeyword m.1 = true) (count : Nat) :
    Accepts limits levels (∀ m ∈ ms, ValidKeyword registry target m.1 m.2) (Json.depthOfMembers ms)
      (Json.countOfMembers ms) count (readKeywords limits read relation ms count) := by
  induction ms generalizing count with
  | nil => exact .ok (by simp)
  | cons m ms ih =>
    obtain ⟨key, j⟩ := m
    obtain ⟨hkeyword, hkeywords⟩ := List.forall_mem_cons.1 hkeywords
    obtain ⟨keyword, hkey⟩ := Option.isSome_iff_exists.1 hkeyword
    simp only [readKeywords, hkey]
    rw [List.forall_mem_cons]
    refine Accepts.mono (.bind (readKeyword_accepts hread hkey relation j count) fun p =>
      .counted <| (ih hkeywords (p.2 + 1)).yield fun q => ⟨_, rfl⟩) (Nat.le_refl _) ?_
    rw [Json.countOfMembers]
    omega

end

variable {read : Entity → PartReader Filter}
  (hread : ∀ target, AcceptsFilters registry limits levels target (read target))

include hread

/-- Once the target is known and the operators are out of the way, the keywords decide how the value
of a relation is read. -/
theorem readRelation_accepts (name : String) (relation : Relation) (json : Json) (count : Nat) :
    Accepts limits levels
      (∃ target, registry.find? relation.target = some target ∧
        ValidRelation registry relation target json)
      json.depth json.memberCount count
      (readRelation registry limits read name relation json count) := by
  unfold readRelation
  split
  · rename_i members
    rw [Registry.lookup]
    cases htarget : registry.find? relation.target with
    | none => exact .error (by simp)
    | some target =>
      simp only [bind, Except.bind, Option.some.injEq, exists_eq_left']
      split
      · rename_i m hm
        -- an operator that is no member of the target is in the way
        have hforeign := List.find?_some hm
        simp only [Bool.and_eq_true, Bool.not_eq_true'] at hforeign
        refine .error fun hvalid => ?_
        obtain ⟨_, ⟨⟩, hoperator⟩ := hvalid.exists_object
        simp [hoperator m (List.mem_of_find?_eq_some hm) hforeign.1] at hforeign
      · rename_i hoperator
        have hoperator : ∀ m ∈ members,
            Operator.isName m.1 = true → target.hasMember m.1 = true := by
          simpa using hoperator
        split
        · rename_i hnone
          have hkeyword : ∀ m ∈ members, isCollectionKeyword m.1 = false := by
            simpa [List.countP_eq_zero] using hnone
          rw [validRelation_nested hoperator hkeyword]
          exact .map (hread target (.object members) count) fun _ => rfl
        · rename_i hsome
          have hkeyword : ∃ m ∈ members, isCollectionKeyword m.1 = true := by
            simpa [List.countP_eq_zero] using hsome
          rw [validRelation_collection hoperator hkeyword]
          split
          · rename_i hmixed
            refine .error fun hvalid => hmixed ?_
            exact List.countP_eq_length.2 fun m hm => (hvalid.2 m hm).isKeyword
          · rename_i hall
            split
            · rename_i hone
              exact .error fun hvalid => by simp [hvalid.1] at hone
            · rename_i hmany
              have hkeywords : ∀ m ∈ members, isCollectionKeyword m.1 = true :=
                List.countP_eq_length.1 (by simpa using hall)
              have hmany : relation.isMany = true := by simpa using hmany
              simp only [hmany, true_and]
              exact .mono (.map (readKeywords_accepts (hread target) name members hkeywords count)
                fun _ => rfl) (Nat.le_succ _) (Nat.le_refl _)
  · rename_i hother
    refine .error ?_
    rintro ⟨target, -, hvalid⟩
    obtain ⟨members, rfl, -⟩ := hvalid.exists_object
    exact hother members rfl

theorem readEntry_accepts (entity : Entity) (key : String) (json : Json) (count : Nat) :
    Accepts limits levels (ValidMember registry entity key json) json.depth json.memberCount count
      (readEntry registry limits read entity key json count) := by
  rw [readEntry]
  split
  · rename_i hand
    exact (readList_accepts (hread entity) (Or.inl hand) andWord json count).map fun _ => rfl
  · rename_i hand
    split
    · rename_i hor
      exact (readList_accepts (hread entity) (Or.inr hor) orWord json count).map fun _ => rfl
    · rename_i hor
      split
      · rename_i hnot
        subst hnot
        exact (readNegated_accepts (hread entity) json count).map fun _ => rfl
      · rename_i hnot
        have hword : isLogicalWord key = false := by simp [isLogicalWord, hand, hor, hnot]
        split
        · rename_i field hfield
          rw [validMember_field hword hfield]
          exact (readField_accepts key field json count).map fun _ => rfl
        · rename_i hfield
          rw [validMember_relation hword hfield]
          split
          · rename_i relation hrelation
            refine Accepts.iff (.map (readRelation_accepts hread key relation json count)
              fun _ => rfl) ?_
            simp [hrelation]
          · rename_i hrelation
            exact .error (by simp [hrelation])

theorem readEntries_accepts (entity : Entity) (ms : List (String × Json)) (count : Nat) :
    Accepts limits levels (∀ m ∈ ms, ValidMember registry entity m.1 m.2) (Json.depthOfMembers ms)
      (Json.countOfMembers ms) count (readEntries registry limits read entity ms count) := by
  induction ms generalizing count with
  | nil => exact .ok (by simp)
  | cons m ms ih =>
    obtain ⟨key, j⟩ := m
    rw [readEntries, List.forall_mem_cons]
    refine Accepts.mono (.bind (readEntry_accepts hread entity key j count) fun p =>
      (ih p.2).yield fun q => ⟨_, rfl⟩) (Nat.le_refl _) ?_
    rw [Json.countOfMembers]
    omega

omit hread

/-- With some levels of nesting left, the documents that are read are the filters of the entity. -/
theorem readFilter_accepts (registry : Registry) (limits : FilterLimits) (levels : Nat)
    (entity : Entity) :
    AcceptsFilters registry limits levels entity (readFilter registry limits levels entity) := by
  induction levels generalizing entity with
  | zero =>
    intro json count
    refine ⟨fun p hp => (nomatch hp), fun hvalid hdepth => ?_⟩
    -- a filter is an object, and there is no level left for one
    cases hvalid
    simp [Json.depth] at hdepth
  | succ levels ih =>
    intro json count
    cases json with
    | object members =>
      rw [readFilter_object, validFilter_object]
      exact .deeper (.map (readEntries_accepts ih entity members count) fun _ => rfl)
    | _ => exact .error fun hvalid => nomatch hvalid

end FilterDocument

/-! ## Filters of a registered entity -/

namespace Filter

variable {registry : Registry} {limits : FilterLimits} {code : String} {entity : Entity}
  {json : Json}

/-- For a registered entity, reading starts with all levels of nesting left and no condition
counted. -/
theorem ofJson_eq_ok (hentity : registry.find? code = some entity) {filter : Filter} :
    ofJson registry limits (some code) json = .ok filter ↔
      ∃ p, FilterDocument.readFilter registry limits (limits.maxDepth + 1) entity json 0 = .ok p ∧
        p.1 = filter := by
  simp only [ofJson, bind, Except.bind, Registry.lookup_eq_ok.2 hentity]
  exact map_eq_ok

/-- Under any limits, what is read is a filter of the grammar. -/
theorem valid_of_ofJson (hentity : registry.find? code = some entity) {filter : Filter}
    (h : ofJson registry limits (some code) json = .ok filter) :
    ValidFilter registry entity json := by
  obtain ⟨p, hp, -⟩ := (ofJson_eq_ok hentity).1 h
  exact ((FilterDocument.readFilter_accepts registry limits _ entity json 0).sound p hp).1

/-- Where the limits leave room for a document, it is read as a filter of a registered entity if and
only if the grammar has it. -/
theorem ofJson_accepts_iff (hentity : registry.find? code = some entity)
    (hdepth : json.depth ≤ limits.maxDepth + 1) (hcount : json.memberCount ≤ limits.maxConditions) :
    (∃ filter, ofJson registry limits (some code) json = .ok filter) ↔
      ValidFilter registry entity json := by
  constructor
  · rintro ⟨filter, h⟩
    exact valid_of_ofJson hentity h
  · intro hvalid
    have haccepts := FilterDocument.readFilter_accepts registry limits (limits.maxDepth + 1) entity
      json 0
    obtain ⟨p, hp⟩ := haccepts.complete hvalid hdepth (by omega)
    exact ⟨p.1, (ofJson_eq_ok hentity).2 ⟨p, hp, rfl⟩⟩

end Filter

/-- Decks of two cards or more, but not of three to five, with a rare card and with none that is
both stale and without a picture. -/
def Catalog.rareDecksDocument : Json :=
  .object [("cards", .object
    [("any", .object [("rank", .object [("in_", .array [.text "S", .text "A"])])]),
      ("none", .object [("image", .object [("is_null", .bool true)]),
        ("updated_at", .object [("older_than_days", .integer 30)])]),
      ("size_gte", .integer 2)]),
    ("not", .object [("card_count", .object [("between", .array [.integer 3, .integer 5])])])]

/-- Decks with an operator put to their cards. -/
def Catalog.nullCardsDocument : Json :=
  .object [("cards", .object [("is_null", .bool true)])]

theorem Filter.ofJson_accepts_iff_deck :
    ValidFilter Catalog.registry Catalog.deck Catalog.rareDecksDocument ∧
      ¬ValidFilter Catalog.registry Catalog.deck Catalog.nullCardsDocument := by
  have hdeck : Catalog.registry.find? "deck" = some Catalog.deck := rfl
  constructor
  · have hread : ∃ filter, ofJson Catalog.registry .default (some "deck")
        Catalog.rareDecksDocument = .ok filter := ⟨_, rfl⟩
    exact (ofJson_accepts_iff hdeck (by decide) (by decide)).1 hread
  · have hrefused : ofJson Catalog.registry .default (some "deck") Catalog.nullCardsDocument =
        .error (.unsupportedOperator "cards" "is_null" "collection relation") := rfl
    intro hvalid
    have hread : ∃ filter, ofJson Catalog.registry .default (some "deck")
        Catalog.nullCardsDocument = .ok filter :=
      (ofJson_accepts_iff hdeck (by decide) (by decide)).2 hvalid
    simp [hrefused] at hread

end FilterQuery
