import FilterQuery.Filter.Detection
import FilterQuery.Proofs.Lists
import FilterQuery.Proofs.Result

/-!
# The keys of a document

What detection gathers, said without its walk: a document has a shape and a nesting
(`Json.Shaped`), and keys in a certain order (`Json.keys`). The keys are gathered exactly when the
shape is right within the limits, and then they are the first occurrences of the keys of the
document (`Detection.keysOf_eq_ok`).
-/

namespace FilterQuery

/-! ## Shape and keys -/

namespace Json

/-- A member of an object that has the shape of a part of a filter: the value of `and` and `or` is a
list of filters, and that of `not` is a filter. -/
def MemberShaped (shaped : Json → Prop) (word : String) (json : Json) : Prop :=
  (word = andWord ∨ word = orWord → ∃ items, json = .array items ∧ ∀ item ∈ items, shaped item) ∧
    (word = notWord → shaped json)

/-- A document that has the shape of a filter and is nested, through logical words, within a number
of levels. -/
def Shaped : Nat → Json → Prop
  | 0, _ => False
  | levels + 1, json =>
    ∃ members, json = .object members ∧ ∀ m ∈ members, MemberShaped (Shaped levels) m.1 m.2

theorem Shaped.isObject {levels : Nat} {json : Json} (h : json.Shaped levels) :
    json.isObject = true := by
  cases levels with
  | zero => exact h.elim
  | succ levels =>
    obtain ⟨members, rfl, -⟩ := h
    rfl

mutual

/-- The keys of a document that are no logical words, looked for through logical words, in the order
of the document and as often as they occur. -/
def keys : Json → List String
  | .object members => keysOfMembers members
  | _ => []

/-- The keys in the items of a logical word. -/
def keysOfItems : List Json → List String
  | [] => []
  | j :: js => j.keys ++ keysOfItems js

/-- The keys in a member of an object: its own, or those that a logical word leads to. -/
def keysOfMember (word : String) : Json → List String
  | .array items =>
    if word = andWord ∨ word = orWord then keysOfItems items
    else if word = notWord then [] else [word]
  | .object members =>
    if word = andWord ∨ word = orWord then []
    else if word = notWord then keysOfMembers members else [word]
  | _ => if isLogicalWord word then [] else [word]

/-- The keys in the members of an object. -/
def keysOfMembers : List (String × Json) → List String
  | [] => []
  | (word, j) :: ms => keysOfMember word j ++ keysOfMembers ms

end

variable {word : String}

theorem keysOfMember_list (hword : word = andWord ∨ word = orWord) (items : List Json) :
    keysOfMember word (.array items) = keysOfItems items := by
  rw [keysOfMember, if_pos hword]

theorem keysOfMember_negation (json : Json) : keysOfMember notWord json = json.keys := by
  cases json <;> simp [keysOfMember, keys, notWord, andWord, orWord, isLogicalWord]

theorem keysOfMember_key (hlist : ¬(word = andWord ∨ word = orWord)) (hnot : word ≠ notWord)
    (json : Json) : keysOfMember word json = [word] := by
  have hword : isLogicalWord word = false := by
    simpa [isLogicalWord, hnot] using hlist
  cases json <;> simp [keysOfMember, hlist, hnot, hword]

end Json

/-! ## What is gathered -/

namespace Detection

open Json

variable {gather : Gatherer} {levels : Nat} {word : String} {json : Json} {keys' : List String}

theorem gatherMember_list {keys : List String} (hword : word = andWord ∨ word = orWord) :
    gatherMember gather word json keys =
      match json with
      | .array items => gatherItems gather word items keys
      | _ => .error (.malformedLogical word .notAList) := by
  unfold gatherMember
  exact if_pos (by simpa using hword)

theorem gatherMember_negation {keys : List String} :
    gatherMember gather notWord json keys =
      if json.isObject then gather json keys
      else .error (.malformedLogical notWord .notAnObject) := by
  unfold gatherMember
  rw [if_neg (by decide), if_pos rfl]

theorem gatherMember_key {keys : List String} (hlist : ¬(word = andWord ∨ word = orWord))
    (hnot : word ≠ notWord) : gatherMember gather word json keys = .ok (addKey keys word) := by
  unfold gatherMember
  rw [if_neg (by simpa using hlist), if_neg hnot]

/-- Adding a key to the first occurrences among some keys gives the first occurrences with it. -/
theorem addKey_eraseDups (ks : List String) (key : String) :
    addKey ks.eraseDups key = (ks ++ [key]).eraseDups := by
  rw [eraseDups_concat, addKey]
  simp [List.mem_eraseDups]

/-- A gatherer that goes on with the keys of the documents of a shape and stops at others. -/
def Gathers (gather : Gatherer) (levels : Nat) : Prop :=
  ∀ json ks keys', gather json ks.eraseDups = .ok keys' ↔
    json.Shaped levels ∧ keys' = (ks ++ json.keys).eraseDups

section

variable (hgather : Gathers gather levels)

include hgather

theorem gatherItems_eq_ok {js : List Json} {ks : List String} :
    gatherItems gather word js ks.eraseDups = .ok keys' ↔
      (∀ j ∈ js, j.Shaped levels) ∧ keys' = (ks ++ keysOfItems js).eraseDups := by
  induction js generalizing ks with
  | nil => simp [gatherItems, keysOfItems, eq_comm]
  | cons j js ih =>
    rw [gatherItems, keysOfItems, List.forall_mem_cons, ← List.append_assoc]
    split
    · rename_i hobject
      have hshape : ¬j.Shaped levels := fun h => by simp [h.isObject] at hobject
      simp [hshape]
    · rw [bind_eq_ok]
      constructor
      · rintro ⟨between, hfirst, hrest⟩
        obtain ⟨hshape, rfl⟩ := (hgather j ks between).1 hfirst
        obtain ⟨hshapes, rfl⟩ := ih.1 hrest
        exact ⟨⟨hshape, hshapes⟩, rfl⟩
      · rintro ⟨⟨hshape, hshapes⟩, rfl⟩
        exact ⟨_, (hgather j ks _).2 ⟨hshape, rfl⟩, ih.2 ⟨hshapes, rfl⟩⟩

theorem gatherMember_eq_ok {ks : List String} :
    gatherMember gather word json ks.eraseDups = .ok keys' ↔
      MemberShaped (Shaped levels) word json ∧
        keys' = (ks ++ keysOfMember word json).eraseDups := by
  by_cases hlist : word = andWord ∨ word = orWord
  · have hnot : word ≠ notWord := by
      rintro rfl
      revert hlist
      decide
    simp only [gatherMember_list hlist, MemberShaped, hlist, hnot, true_imp_iff, false_imp_iff,
      and_true]
    split
    · simp [gatherItems_eq_ok hgather, keysOfMember_list hlist]
    · rename_i hnoArray
      simp only [reduceCtorEq, false_iff, not_and]
      rintro ⟨items, rfl, -⟩
      exact absurd rfl (hnoArray items)
  · by_cases hnot : word = notWord
    · subst hnot
      rw [gatherMember_negation, keysOfMember_negation]
      simp only [MemberShaped, hlist, false_imp_iff, true_imp_iff, true_and]
      split
      · exact hgather json ks keys'
      · rename_i hobject
        have hshape : ¬json.Shaped levels := fun h => hobject h.isObject
        simp [hshape]
    · rw [gatherMember_key hlist hnot, keysOfMember_key hlist hnot, addKey_eraseDups]
      simp [MemberShaped, hlist, hnot, eq_comm]

theorem gatherMembers_eq_ok {ms : List (String × Json)} {ks : List String} :
    gatherMembers gather ms ks.eraseDups = .ok keys' ↔
      (∀ m ∈ ms, MemberShaped (Shaped levels) m.1 m.2) ∧
        keys' = (ks ++ keysOfMembers ms).eraseDups := by
  induction ms generalizing ks with
  | nil => simp [gatherMembers, keysOfMembers, eq_comm]
  | cons m ms ih =>
    obtain ⟨word, j⟩ := m
    rw [gatherMembers, keysOfMembers, List.forall_mem_cons, ← List.append_assoc, bind_eq_ok]
    constructor
    · rintro ⟨between, hfirst, hrest⟩
      obtain ⟨hshape, rfl⟩ := (gatherMember_eq_ok hgather).1 hfirst
      obtain ⟨hshapes, rfl⟩ := ih.1 hrest
      exact ⟨⟨hshape, hshapes⟩, rfl⟩
    · rintro ⟨⟨hshape, hshapes⟩, rfl⟩
      exact ⟨_, (gatherMember_eq_ok hgather).2 ⟨hshape, rfl⟩, ih.2 ⟨hshapes, rfl⟩⟩

end

/-- At every level, gathering goes on with the keys of the documents that fit the level. -/
theorem gatherKeys_gathers (limits : FilterLimits) (levels : Nat) :
    Gathers (gatherKeys limits levels) levels := by
  induction levels with
  | zero =>
    intro json ks keys'
    simp [gatherKeys, Shaped]
  | succ levels ih =>
    intro json ks keys'
    unfold gatherKeys
    split
    · rename_i members
      simp [gatherMembers_eq_ok ih, Shaped, Json.keys]
    · rename_i hnoObject
      simp only [Shaped, reduceCtorEq, false_iff, not_and]
      rintro ⟨members, rfl, -⟩
      exact absurd rfl (hnoObject members)

/-- The keys of a document are gathered exactly when its shape and its depth are right, and they are
its keys in the order of their first occurrences. -/
theorem keysOf_eq_ok {limits : FilterLimits} {json : Json} :
    keysOf limits json = .ok keys' ↔
      json.Shaped (limits.maxDepth + 1) ∧ keys' = json.keys.eraseDups :=
  gatherKeys_gathers limits _ json [] keys'

end Detection

end FilterQuery
