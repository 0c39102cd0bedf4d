import FilterQuery.Proofs.Filter.Grammar
import FilterQuery.Proofs.Result

/-!
# Entries of a filter

A filter is read member by member, in two ways: an object of logical words makes a list of filters,
and any other object fills the slots of a filter of the entity. Both read a member as the same
thing, an `Entry`, and differ in what they make of the entries (`FilterDocument.assemble`). So an
object is read as its entries are, whatever its keys (`FilterDocument.readFilter_object`).
-/

namespace FilterQuery.FilterDocument

/-! ## Reading entries -/

/-- What a member of a filter of an entity says. -/
inductive Entry where
  /-- Tests on a field. -/
  | fields (tests : List FieldTest)
  /-- What is said of the rows that a relation leads to. -/
  | relation (name : String) (part : RelationPart)
  /-- Filters each of which must hold. -/
  | all (filters : List Filter)
  /-- Filters one of which must hold. -/
  | any (filters : List Filter)
  /-- A filter that must not hold. -/
  | negated (item : Filter)

/-- A filter of an entity with one more entry in its slots. -/
def Entry.addTo : Entry → EntityFilter → EntityFilter
  | .fields tests, filter => { filter with fields := filter.fields ++ tests }
  | .relation name part, filter => part.addTo name filter
  | .all filters, filter => { filter with all := filter.all ++ filters }
  | .any filters, filter => { filter with any := filter.any ++ filters }
  | .negated item, filter => { filter with negated := addNegated filter.negated item }

/-- The filter of an entity that an entry is by itself. -/
def Entry.alone (code : String) : Entry → Filter
  | .all filters => .all filters
  | .any filters => .any filters
  | .negated item => .not item
  | entry => .entity (entry.addTo (.everything code))

/-- Reads one member of a filter of an entity. -/
def readEntry (registry : Registry) (limits : FilterLimits) (read : Entity → PartReader Filter)
    (entity : Entity) (key : String) : PartReader Entry :=
  fun json count =>
    if key = andWord then
      (readList (read entity) andWord json count).map fun (fs, n) => (.all fs, n)
    else if key = orWord then
      (readList (read entity) orWord json count).map fun (fs, n) => (.any fs, n)
    else if key = notWord then
      (readNegated (read entity) json count).map fun (f, n) => (.negated f, n)
    else
      match entity.field? key with
      | some field => (readField limits key field json count).map fun (ts, n) => (.fields ts, n)
      | none =>
        match entity.relation? key with
        | some relation =>
          (readRelation registry limits read key relation json count).map fun (part, n) =>
            (.relation key part, n)
        | none => .error (unknownKey entity key json)

/-- Reads the members of a filter of an entity in order. -/
def readEntries (registry : Registry) (limits : FilterLimits) (read : Entity → PartReader Filter)
    (entity : Entity) : List (String × Json) → Nat → Except FilterError (List Entry × Nat)
  | [], count => .ok ([], count)
  | (key, j) :: ms, count => do
    let (entry, count) ← readEntry registry limits read entity key j count
    let (entries, count) ← readEntries registry limits read entity ms count
    .ok (entry :: entries, count)

/-- The filter that the entries of an object make. -/
def assemble (code : String) (members : List (String × Json)) (entries : List Entry) : Filter :=
  if isCombination members then combine (entries.map (Entry.alone code))
  else .entity (entries.foldl (fun filter entry => entry.addTo filter) (.everything code))

/-! ## Both ways read entries -/

variable (registry : Registry) (limits : FilterLimits) {read : Entity → PartReader Filter}
  {entity : Entity}

theorem readCombinator_eq {word : String} (hword : isLogicalWord word = true) (json : Json)
    (count : Nat) :
    readCombinator (read entity) word json count =
      (readEntry registry limits read entity word json count).map fun p =>
        (p.1.alone entity.code, p.2) := by
  unfold readCombinator readEntry
  split
  · rw [map_map]
    rfl
  · rename_i hand
    split
    · rw [map_map]
      rfl
    · rename_i hor
      have hnot : word = notWord :=
        (isLogicalWord_eq_true hword).resolve_left (not_or.2 ⟨hand, hor⟩)
      rw [if_pos hnot, map_map]
      rfl

theorem readCombinators_eq (ms : List (String × Json))
    (hwords : ∀ m ∈ ms, isLogicalWord m.1 = true) (count : Nat) :
    readCombinators (read entity) ms count =
      (readEntries registry limits read entity ms count).map fun p =>
        (p.1.map (Entry.alone entity.code), p.2) := by
  induction ms generalizing count with
  | nil => rfl
  | cons m ms ih =>
    obtain ⟨word, j⟩ := m
    obtain ⟨hword, hwords⟩ := List.forall_mem_cons.1 hwords
    rw [readCombinators, readEntries, readCombinator_eq registry limits hword]
    cases readEntry registry limits read entity word j count with
    | error e => rfl
    | ok p =>
      simp only [Except.map, bind, Except.bind, ih hwords p.2]
      cases readEntries registry limits read entity ms p.2 <;> rfl

theorem readMember_eq (key : String) (json : Json) (filter : EntityFilter) (count : Nat) :
    readMember registry limits read entity key json filter count =
      (readEntry registry limits read entity key json count).map fun p =>
        (p.1.addTo filter, p.2) := by
  unfold readMember readEntry
  split
  · rw [map_map]
    rfl
  · split
    · rw [map_map]
      rfl
    · split
      · rw [map_map]
        rfl
      · cases entity.field? key with
        | some field =>
          simp only [map_map]
          rfl
        | none =>
          cases entity.relation? key with
          | some relation =>
            simp only [map_map]
            rfl
          | none => rfl

theorem readMembers_eq (ms : List (String × Json)) (filter : EntityFilter) (count : Nat) :
    readMembers registry limits read entity ms filter count =
      (readEntries registry limits read entity ms count).map fun p =>
        (p.1.foldl (fun filter entry => entry.addTo filter) filter, p.2) := by
  induction ms generalizing filter count with
  | nil => rfl
  | cons m ms ih =>
    obtain ⟨key, j⟩ := m
    rw [readMembers, readEntries, readMember_eq]
    cases readEntry registry limits read entity key j count with
    | error e => rfl
    | ok p =>
      simp only [Except.map, bind, Except.bind, ih (p.1.addTo filter) p.2]
      cases readEntries registry limits read entity ms p.2 <;> rfl

/-- An object is read as its entries are, and then they are put together. -/
theorem readFilter_object {levels : Nat} (members : List (String × Json)) (count : Nat) :
    readFilter registry limits (levels + 1) entity (.object members) count =
      (readEntries registry limits (readFilter registry limits levels) entity members count).map
        fun p => (assemble entity.code members p.1, p.2) := by
  simp only [readFilter, assemble]
  split
  · rename_i hwords
    have hwords : ∀ m ∈ members, isLogicalWord m.1 = true := by
      simp only [isCombination, Bool.and_eq_true, List.all_eq_true] at hwords
      exact hwords.2
    rw [readCombinators_eq registry limits members hwords, map_map]
  · rw [readMembers_eq, map_map]

end FilterQuery.FilterDocument
