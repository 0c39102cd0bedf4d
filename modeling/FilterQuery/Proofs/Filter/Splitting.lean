import FilterQuery.Proofs.Filter.Limits
import FilterQuery.Proofs.Lists

/-!
# Objects that are read piece by piece

The members of a filter, the operators of a field and the keywords of a collection are read one
after another, and what is read of one does not depend on the others: under limits that allow the
whole, each of them by itself is read as its piece of the whole (`Piecewise.pieces`). A reader is
`Piecewise` when it reads an object as its first member and then the rest, and is bounded, so that
the conditions before a member only matter to the limits.
-/

namespace FilterQuery

/-- A reader that gets through after some conditions also does so after none, and reads the same. -/
theorem Bounded.restart {α : Type} {limits : FilterLimits} {levels : Nat} {extent : Extent}
    {x : Nat → Except FilterError (α × Nat)}
    (h : ∀ count start, Bounded limits levels extent count start (x count) (x start)) {start : Nat}
    (hstart : start ≤ limits.maxConditions) {p : α × Nat} (hp : x start = .ok p) :
    p.2 ≤ limits.maxConditions ∧ ∃ n, x 0 = .ok (p.1, n) := by
  have hcounts := (h start start).counts p hp
  obtain ⟨hlevels, hroom⟩ := (h start start).room hp hp hstart
  exact ⟨by omega, _, (h 0 start).within p hp ⟨hlevels, by omega⟩⟩

/-- A reader of the members of an object that reads one after another. -/
structure Piecewise {β : Type} (limits : FilterLimits) (levels : Nat)
    (reader : List (String × Json) → Nat → Except FilterError (List β × Nat)) : Prop where
  /-- Without a member, nothing is read. -/
  nil : ∀ count, reader [] count = .ok ([], count)
  /-- The first member is read by itself, and then the rest. -/
  cons : ∀ m ms count, reader (m :: ms) count =
    reader [m] count >>= fun p => (reader ms p.2).map fun q => (p.1 ++ q.1, q.2)
  /-- The conditions before only matter to the limits. -/
  bounded : ∀ ms, ∃ extent, ∀ count start,
    Bounded limits levels extent count start (reader ms count) (reader ms start)

/-- What a piecewise reader reads is made of what it reads of the members, one by one. -/
theorem Piecewise.pieces {β : Type} {limits : FilterLimits} {levels : Nat}
    {reader : List (String × Json) → Nat → Except FilterError (List β × Nat)}
    (hreader : Piecewise limits levels reader) {ms : List (String × Json)} {count : Nat}
    (hcount : count ≤ limits.maxConditions) {p : List β × Nat} (h : reader ms count = .ok p) :
    ∃ pieces, List.Forall₂ (fun m piece => ∃ n, reader [m] 0 = .ok (piece, n)) ms pieces ∧
      pieces.flatten = p.1 := by
  -- along the members the count grows, and it stays within the limit
  induction ms generalizing count p with
  | nil =>
    rw [hreader.nil] at h
    cases h
    exact ⟨[], .nil, rfl⟩
  | cons m ms ih =>
    rw [hreader.cons] at h
    obtain ⟨first, hfirst, h⟩ := bind_eq_ok.1 h
    obtain ⟨rest, hrest, rfl⟩ := map_eq_ok.1 h
    obtain ⟨extent, hbounded⟩ := hreader.bounded [m]
    obtain ⟨hroom, halone⟩ := Bounded.restart hbounded hcount hfirst
    obtain ⟨pieces, hpieces, hflatten⟩ := ih hroom hrest
    exact ⟨first.1 :: pieces, .cons halone hpieces, by rw [List.flatten_cons, hflatten]⟩

namespace FilterDocument

variable {registry : Registry} {limits : FilterLimits} {levels : Nat} {entity : Entity}

/-! ## Members -/

section

variable {read : Entity → PartReader Filter}

theorem readEntries_piecewise
    (hread : ∀ target, BoundedFilters registry limits levels target (read target) (read target))
    (entity : Entity) : Piecewise limits levels (readEntries registry limits read entity) where
  nil _ := rfl
  cons m ms count := by
    obtain ⟨key, j⟩ := m
    simp only [readEntries]
    cases readEntry registry limits read entity key j count with
    | error e => rfl
    | ok p =>
      simp only [bind, Except.bind]
      cases readEntries registry limits read entity ms p.2 <;> rfl
  bounded ms := ⟨_, readEntries_bounded hread entity ms⟩

/-- What an entry has of the member that it is read from. -/
def Entry.From (key : String) (json : Json) : Entry → Prop
  | .all _ => key = andWord
  | .any filters => key = orWord ∧ (filters = [] → json = .array [])
  | .negated _ => key = notWord
  | _ => isLogicalWord key = false

theorem readList_eq_nil {reader : PartReader Filter} {word : String} {json : Json} {count : Nat}
    {p : List Filter × Nat} (h : readList reader word json count = .ok p) (hnil : p.1 = []) :
    json = .array [] := by
  unfold readList at h
  split at h
  · rename_i items
    cases items with
    | nil => rfl
    | cons j js =>
      unfold readItems at h
      split at h
      · cases h
      · obtain ⟨first, -, h⟩ := bind_eq_ok.1 h
        obtain ⟨rest, -, h⟩ := bind_eq_ok.1 h
        obtain rfl := Except.ok.inj h
        cases hnil
  · cases h

theorem readEntry_from {key : String} {json : Json} {count : Nat} {p : Entry × Nat}
    (h : readEntry registry limits read entity key json count = .ok p) : p.1.From key json := by
  unfold readEntry at h
  split at h
  · rename_i hand
    obtain ⟨q, -, rfl⟩ := map_eq_ok.1 h
    exact hand
  · rename_i hand
    split at h
    · rename_i hor
      obtain ⟨q, hq, rfl⟩ := map_eq_ok.1 h
      exact ⟨hor, readList_eq_nil hq⟩
    · rename_i hor
      split at h
      · rename_i hnot
        obtain ⟨q, -, rfl⟩ := map_eq_ok.1 h
        exact hnot
      · rename_i hnot
        have hword : isLogicalWord key = false := by simp [isLogicalWord, hand, hor, hnot]
        split at h
        · obtain ⟨q, -, rfl⟩ := map_eq_ok.1 h
          exact hword
        · split at h
          · obtain ⟨q, -, rfl⟩ := map_eq_ok.1 h
            exact hword
          · cases h

/-- By itself, an entry is a filter in one and the same way. -/
theorem assemble_single {code key : String} {json : Json} {entry : Entry}
    (h : entry.From key json) : assemble code [(key, json)] [entry] = entry.alone code := by
  cases entry with
  | all filters =>
    cases h
    rfl
  | any filters =>
    cases h.1
    rfl
  | negated item =>
    cases h
    rfl
  | _ =>
    have hword : isLogicalWord key = false := h
    simp [assemble, isCombination, hword, Entry.alone]

end

/-- An object of one member. -/
theorem readFilter_single (key : String) (json : Json) (count : Nat) :
    readFilter registry limits (levels + 1) entity (.object [(key, json)]) count =
      (readEntry registry limits (readFilter registry limits levels) entity key json count).map
        fun p => (p.1.alone entity.code, p.2) := by
  rw [readFilter_object, readEntries]
  cases hentry : readEntry registry limits (readFilter registry limits levels) entity key json
      count with
  | error e => rfl
  | ok p =>
    rw [Except.map, ← assemble_single (readEntry_from hentry)]
    rfl

/-- An object is read as entries as which its members are read, each by itself. -/
theorem readFilter_members {members : List (String × Json)} {p : Filter × Nat}
    (h : readFilter registry limits (levels + 1) entity (.object members) 0 = .ok p) :
    ∃ entries, p.1 = assemble entity.code members entries ∧
      List.Forall₂ (fun m entry => ∃ n, readEntry registry limits
        (readFilter registry limits levels) entity m.1 m.2 0 = .ok (entry, n)) members entries := by
  rw [readFilter_object] at h
  obtain ⟨q, hq, rfl⟩ := map_eq_ok.1 h
  have hread := fun target => readFilter_bounded registry limits limits levels levels target
  obtain ⟨pieces, hpieces, hflatten⟩ :=
    (readEntries_piecewise hread entity).pieces (Nat.zero_le _) hq
  refine ⟨q.1, rfl, ?_⟩
  -- the piece of one member is its entry alone
  rw [← hflatten]
  refine forall₂_flatten (hpieces.imp fun m piece hpiece => ?_)
  obtain ⟨n, hpiece⟩ := hpiece
  obtain ⟨key, j⟩ := m
  obtain ⟨entry, hentry, hpiece⟩ := bind_eq_ok.1 hpiece
  obtain ⟨rfl, rfl⟩ := Prod.mk.inj (Except.ok.inj hpiece)
  exact ⟨entry.1, rfl, entry.2, hentry⟩

/-- An object is read as entries each of which its member is read as. -/
theorem readFilter_entries {members : List (String × Json)} {p : Filter × Nat}
    (h : readFilter registry limits (levels + 1) entity (.object members) 0 = .ok p) :
    ∃ entries, p.1 = assemble entity.code members entries ∧
      List.Forall₂ (fun m entry => entry.From m.1 m.2 ∧
        ∃ n, readFilter registry limits (levels + 1) entity (.object [m]) 0 =
          .ok (entry.alone entity.code, n)) members entries := by
  obtain ⟨entries, hwhole, hentries⟩ := readFilter_members h
  refine ⟨entries, hwhole, hentries.imp fun m entry hentry => ?_⟩
  obtain ⟨n, hentry⟩ := hentry
  refine ⟨readEntry_from hentry, n, ?_⟩
  rw [readFilter_single, hentry]
  rfl

/-- The items of a logical word are read as filters as which they are read by themselves. -/
theorem readItems_pieces {target : Entity} {read : PartReader Filter}
    (hread : BoundedFilters registry limits levels target read read) {word : String}
    {items : List Json} {count : Nat} (hcount : count ≤ limits.maxConditions)
    {p : List Filter × Nat} (h : readItems read word items count = .ok p) :
    List.Forall₂ (fun j f => ∃ n, read j 0 = .ok (f, n)) items p.1 := by
  induction items generalizing count p with
  | nil =>
    obtain rfl := Except.ok.inj h
    exact .nil
  | cons j js ih =>
    unfold readItems at h
    split at h
    · cases h
    · obtain ⟨first, hfirst, h⟩ := bind_eq_ok.1 h
      obtain ⟨rest, hrest, h⟩ := bind_eq_ok.1 h
      obtain rfl := Except.ok.inj h
      obtain ⟨hroom, halone⟩ := Bounded.restart (hread j) hcount hfirst
      exact .cons halone (ih hroom hrest)

/-! ## Operators of a field -/

theorem readTests_piecewise (levels : Nat) (name : String) (kind : ValueKind) :
    Piecewise limits levels (readTests limits name kind) where
  nil _ := rfl
  cons m ms count := by
    obtain ⟨key, j⟩ := m
    simp only [readTests]
    cases readTest name kind key j with
    | error e => rfl
    | ok test =>
      simp only [bind, Except.bind]
      cases countCondition limits count with
      | error e => rfl
      | ok n =>
        simp only [Except.map]
        cases readTests limits name kind ms n <;> rfl
  bounded ms := ⟨_, readTests_bounded name kind ms⟩

section

variable {read : Entity → PartReader Filter} {name : String} (hword : isLogicalWord name = false)

include hword

theorem readEntry_field {field : Field} (hfield : entity.field? name = some field)
    (m : String × Json) (ms : List (String × Json)) (count : Nat) :
    readEntry registry limits read entity name (.object (m :: ms)) count =
      (readTests limits name field.kind (m :: ms) count).map fun p => (.fields p.1, p.2) := by
  simp only [isLogicalWord, Bool.or_eq_false_iff, beq_eq_false_iff_ne] at hword
  simp only [readEntry, hword, if_false, hfield, readField]

/-- The operators of a field are read as tests each of which its operator is read as. -/
theorem readFilter_tests {field : Field} (hfield : entity.field? name = some field)
    {tests : List (String × Json)} {p : Filter × Nat}
    (h : readFilter registry limits (levels + 1) entity (.object [(name, .object tests)]) 0 =
      .ok p) :
    ∃ pieces, p.1 = (Entry.fields pieces.flatten).alone entity.code ∧
      List.Forall₂ (fun t piece =>
        ∃ n, readFilter registry limits (levels + 1) entity (.object [(name, .object [t])]) 0 =
          .ok ((Entry.fields piece).alone entity.code, n)) tests pieces := by
  rw [readFilter_single] at h
  obtain ⟨q, hq, rfl⟩ := map_eq_ok.1 h
  cases tests with
  | nil =>
    simp only [isLogicalWord, Bool.or_eq_false_iff, beq_eq_false_iff_ne] at hword
    simp only [readEntry, hword, if_false, hfield, readField, Except.map] at hq
    cases hq
  | cons t ts =>
    rw [readEntry_field hword hfield] at hq
    obtain ⟨r, hr, rfl⟩ := map_eq_ok.1 hq
    obtain ⟨pieces, hpieces, hflatten⟩ :=
      (readTests_piecewise levels name field.kind).pieces (Nat.zero_le _) hr
    refine ⟨pieces, by rw [hflatten], hpieces.imp fun t piece hpiece => ?_⟩
    obtain ⟨n, hpiece⟩ := hpiece
    refine ⟨n, ?_⟩
    rw [readFilter_single, readEntry_field hword hfield, hpiece]
    rfl

end

/-! ## Keywords of a collection -/

theorem readKeywords_piecewise {target : Entity} {read : PartReader Filter}
    (hread : BoundedFilters registry limits levels target read read) (relation : String) :
    Piecewise limits levels (readKeywords limits read relation) where
  nil _ := rfl
  cons m ms count := by
    obtain ⟨key, j⟩ := m
    simp only [readKeywords]
    cases CollectionKeyword.ofName? key with
    | none =>
      simp only [bind, Except.bind]
      cases readKeywords limits read relation ms count <;> rfl
    | some keyword =>
      simp only [bind, Except.bind]
      cases readKeyword read relation key keyword j count with
      | error e => rfl
      | ok p =>
        simp only
        cases countCondition limits p.2 with
        | error e => rfl
        | ok n =>
          simp only [Except.map]
          cases readKeywords limits read relation ms n <;> rfl
  bounded ms := ⟨_, readKeywords_bounded hread relation ms⟩

theorem isName_of_isCollectionKeyword {key : String} (h : isCollectionKeyword key = true) :
    Operator.isName key = false := by
  unfold isCollectionKeyword CollectionKeyword.ofName? at h
  split at h
  all_goals first | decide | cases h

section

variable {read : Entity → PartReader Filter} {name : String} {relation : Relation}
  (hword : isLogicalWord name = false) (hrelation : entity.relation? name = some relation)

include hword hrelation

theorem readEntry_relation (json : Json) (count : Nat) :
    readEntry registry limits read entity name json count =
      (readRelation registry limits read name relation json count).map fun p =>
        (.relation name p.1, p.2) := by
  have hfield : entity.field? name = none := Entity.field?_of_relation? hrelation
  simp only [isLogicalWord, Bool.or_eq_false_iff, beq_eq_false_iff_ne] at hword
  simp only [readEntry, hword, if_false, hfield, hrelation]

omit hword hrelation in
/-- With a keyword in it, the value of a relation is read only if the relation leads to many rows
and there is nothing else in it; then its keywords are what is read. -/
theorem readRelation_keywords {members : List (String × Json)} {count : Nat}
    {p : RelationPart × Nat} (hkeyword : ∃ m ∈ members, isCollectionKeyword m.1 = true) :
    readRelation registry limits read name relation (.object members) count = .ok p ↔
      ∃ target, registry.find? relation.target = some target ∧ relation.isMany = true ∧
        (∀ m ∈ members, isCollectionKeyword m.1 = true) ∧
        ∃ q, readKeywords limits (read target) name members count = .ok q ∧
          (.related q.1, q.2) = p := by
  have hsome : members.countP (fun m => isCollectionKeyword m.1) ≠ 0 := by
    simpa [List.countP_eq_zero] using hkeyword
  rw [readRelation]
  simp only [bind_eq_ok, Registry.lookup_eq_ok]
  refine exists_congr fun target => and_congr_right fun htarget => ?_
  by_cases hkeywords : ∀ m ∈ members, isCollectionKeyword m.1 = true
  · have hoperators : (members.find? fun m => Operator.isName m.1 && !target.hasMember m.1) =
        none := by
      simp +contextual [List.find?_eq_none, isName_of_isCollectionKeyword, hkeywords]
    have hall : members.countP (fun m => isCollectionKeyword m.1) = members.length :=
      List.countP_eq_length.2 hkeywords
    simp only [hoperators]
    rw [if_neg hsome, if_neg (not_not_intro hall), and_iff_right hkeywords]
    cases relation.isMany with
    | true => exact map_eq_ok.trans (and_iff_right rfl).symm
    | false => simp
  · have hmixed : members.countP (fun m => isCollectionKeyword m.1) ≠ members.length :=
      fun h => hkeywords (List.countP_eq_length.1 h)
    simp only [if_neg hsome, if_pos hmixed, hkeywords, false_and, and_false, iff_false]
    cases members.find? fun m => Operator.isName m.1 && !target.hasMember m.1 with
    | some m => simp
    | none => simp

/-- The keywords of a collection are read as tests each of which its keyword is read as. -/
theorem readFilter_keywords {keywords : List (String × Json)}
    (hkeyword : ∃ m ∈ keywords, isCollectionKeyword m.1 = true) {p : Filter × Nat}
    (h : readFilter registry limits (levels + 1) entity (.object [(name, .object keywords)]) 0 =
      .ok p) :
    ∃ pieces, p.1 = (Entry.relation name (.related pieces.flatten)).alone entity.code ∧
      List.Forall₂ (fun k piece =>
        ∃ n, readFilter registry limits (levels + 1) entity (.object [(name, .object [k])]) 0 =
          .ok ((Entry.relation name (.related piece)).alone entity.code, n)) keywords pieces := by
  rw [readFilter_single, readEntry_relation hword hrelation, map_map] at h
  obtain ⟨q, hq, rfl⟩ := map_eq_ok.1 h
  obtain ⟨target, htarget, hmany, hkeywords, r, hr, rfl⟩ := (readRelation_keywords hkeyword).1 hq
  have hread := readFilter_bounded registry limits limits levels levels target
  obtain ⟨pieces, hpieces, hflatten⟩ :=
    (readKeywords_piecewise hread name).pieces (Nat.zero_le _) hr
  refine ⟨pieces, by rw [hflatten], ?_⟩
  refine ((List.forall₂_and_left _ _).2 ⟨hkeywords, hpieces⟩).imp fun k piece hpiece => ?_
  obtain ⟨hkeyword, n, hpiece⟩ := hpiece
  have hrelated := (readRelation_keywords
    ⟨k, List.mem_singleton_self k, hkeyword⟩).2
    ⟨target, htarget, hmany, List.forall_mem_singleton.2 hkeyword, _, hpiece, rfl⟩
  refine ⟨n, ?_⟩
  rw [readFilter_single, readEntry_relation hword hrelation, hrelated]
  rfl

end

end FilterDocument

end FilterQuery
