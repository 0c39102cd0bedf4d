/-!
# Maps from names

A finite map whose keys are names, kept as the list of its entries in increasing order of the
names. Names are ordered character by character, which is also the order of their UTF-8 bytes.
Because the order is part of the type, two maps with the same entries are the same map, in
whatever order the entries were put in.

`find?_insert` says what a map answers after an insertion.
-/

namespace FilterQuery

/-- A finite map from names, as its entries in strictly increasing order of the names. -/
@[ext]
structure NameMap (α : Type) where
  /-- The entries, each name once. -/
  entries : List (String × α)
  /-- The names increase from each entry to every later one. -/
  ordered : entries.Pairwise (fun a b => a.1 < b.1)

namespace NameMap

variable {α : Type}

/-! ## Entry lists -/

/-- Puts an entry at its place in an ordered list, taking the place of one with the same name. -/
def insertEntry (name : String) (value : α) : List (String × α) → List (String × α)
  | [] => [(name, value)]
  | e :: es =>
    if name < e.1 then (name, value) :: e :: es
    else if name = e.1 then (name, value) :: es
    else e :: insertEntry name value es

/-- The value that the first entry with a name holds. -/
def findEntry (name : String) : List (String × α) → Option α
  | [] => none
  | e :: es => if e.1 = name then some e.2 else findEntry name es

theorem mem_insertEntry {name : String} {value : α} {es : List (String × α)} {x : String × α}
    (h : x ∈ insertEntry name value es) : x = (name, value) ∨ x ∈ es := by
  induction es with
  | nil => simpa [insertEntry] using h
  | cons e es ih =>
    unfold insertEntry at h
    split at h
    · simpa using h
    · split at h
      · rcases List.mem_cons.1 h with h | h
        · exact Or.inl h
        · exact Or.inr (List.mem_cons_of_mem _ h)
      · rcases List.mem_cons.1 h with h | h
        · exact Or.inr (h ▸ List.mem_cons_self)
        · rcases ih h with h | h
          · exact Or.inl h
          · exact Or.inr (List.mem_cons_of_mem _ h)

theorem lt_of_not_lt_of_ne {a b : String} (h : ¬ a < b) (hne : a ≠ b) : b < a := by
  rcases String.le_total a b with hab | hba
  · exact absurd (String.le_antisymm hab (String.not_lt.1 h)) hne
  · exact Classical.byContradiction fun hn =>
      hne (String.le_antisymm (String.not_lt.1 hn) (String.not_lt.1 h))

theorem pairwise_insertEntry (name : String) (value : α) {es : List (String × α)}
    (h : es.Pairwise (fun a b => a.1 < b.1)) :
    (insertEntry name value es).Pairwise (fun a b => a.1 < b.1) := by
  induction es with
  | nil => simp [insertEntry]
  | cons e es ih =>
    have ⟨he, hes⟩ := List.pairwise_cons.1 h
    unfold insertEntry
    split
    · rename_i hlt
      refine List.pairwise_cons.2 ⟨fun x hx => ?_, h⟩
      rcases List.mem_cons.1 hx with hx | hx
      · exact hx ▸ hlt
      · exact String.lt_trans hlt (he x hx)
    · split
      · rename_i heq
        exact List.pairwise_cons.2 ⟨fun x hx => heq ▸ he x hx, hes⟩
      · rename_i hnlt hne
        refine List.pairwise_cons.2 ⟨fun x hx => ?_, ih hes⟩
        rcases mem_insertEntry hx with hx | hx
        · exact hx ▸ lt_of_not_lt_of_ne hnlt hne
        · exact he x hx

theorem findEntry_insertEntry (name other : String) (value : α) (es : List (String × α)) :
    findEntry other (insertEntry name value es) =
      if name = other then some value else findEntry other es := by
  induction es with
  | nil => simp [insertEntry, findEntry]
  | cons e es ih =>
    unfold insertEntry
    split
    · by_cases ho : name = other <;> simp [findEntry, ho]
    · split
      · rename_i heq
        by_cases ho : name = other
        · simp [findEntry, ho]
        · simp [findEntry, ho, ← heq]
      · rename_i hne
        by_cases he : e.1 = other
        · have : name ≠ other := fun h => hne (h.trans he.symm)
          simp [findEntry, he, this]
        · simp [findEntry, he, ih]

/-! ## The map -/

/-- The map without entries. -/
def empty : NameMap α :=
  ⟨[], List.Pairwise.nil⟩

/-- The map with one entry put in, in place of any entry of the same name. -/
def insert (m : NameMap α) (name : String) (value : α) : NameMap α :=
  ⟨insertEntry name value m.entries, pairwise_insertEntry name value m.ordered⟩

/-- The value under a name. -/
def find? (m : NameMap α) (name : String) : Option α :=
  findEntry name m.entries

/-- Whether a name has an entry. -/
def contains (m : NameMap α) (name : String) : Bool :=
  (m.find? name).isSome

/-- The names, in increasing order. -/
def names (m : NameMap α) : List String :=
  m.entries.map Prod.fst

/-- The number of entries. -/
def size (m : NameMap α) : Nat :=
  m.entries.length

@[simp] theorem find?_empty (name : String) : (empty : NameMap α).find? name = none := rfl

theorem find?_insert (m : NameMap α) (name other : String) (value : α) :
    (m.insert name value).find? other = if name = other then some value else m.find? other :=
  findEntry_insertEntry name other value m.entries

theorem contains_insert (m : NameMap α) (name other : String) (value : α) :
    (m.insert name value).contains other = (name == other || m.contains other) := by
  by_cases h : name = other <;> simp [contains, find?_insert, h]

theorem names_pairwise (m : NameMap α) : m.names.Pairwise (· < ·) :=
  List.pairwise_map.2 m.ordered

end NameMap

end FilterQuery
