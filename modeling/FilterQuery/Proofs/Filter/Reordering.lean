import FilterQuery.Proofs.Filter.Detecting
import FilterQuery.Proofs.Filter.Limits
import FilterQuery.Proofs.Lists

/-!
# Documents in another order

Two documents are `Reordered` when they differ only in the order in which their objects, at any
depth, have their members. The keys of an object are different from one another. Neither the grammar
nor what a document asks of the limits depends on the order (`ValidFilter.reordered`,
`Json.Reordered.extent_eq`), and detection finds the same shape and the same keys
(`Json.Reordered.shaped`, `Json.Reordered.mentions`).
-/

namespace FilterQuery

/-! ## The relation -/

mutual

/-- Two JSON values that differ at most in the order of the members of objects. -/
inductive Json.Reordered : Json → Json → Prop
  | scalar {json : Json} (noArray : ∀ items, json ≠ .array items)
      (noObject : ∀ members, json ≠ .object members) : Reordered json json
  | array {items items' : List Json} (inside : List.Forall₂ Reordered items items') :
      Reordered (.array items) (.array items')
  | object {members members' : List (String × Json)} (distinct : (members.map Prod.fst).Nodup)
      (inside : Matched ReorderedMember members members') :
      Reordered (.object members) (.object members')

/-- Two members with one key. -/
inductive Json.ReorderedMember : String × Json → String × Json → Prop
  | intro {key : String} {json json' : Json} (inside : Reordered json json') :
      ReorderedMember (key, json) (key, json')

end

namespace Json

/-- Induction over JSON values: a property of all values is one that passes from the values in an
array or an object to the array or the object. -/
theorem induct {P : Json → Prop}
    (scalar : ∀ json, (∀ items, json ≠ .array items) → (∀ members, json ≠ .object members) → P json)
    (array : ∀ items, (∀ j ∈ items, P j) → P (.array items))
    (object : ∀ members, (∀ m ∈ members, P m.2) → P (.object members)) : ∀ json, P json := by
  intro json
  induction h : sizeOf json using Nat.strongRecOn generalizing json with
  | ind n ih =>
    subst h
    cases json with
    | array items =>
      refine array items fun j hj => ih _ ?_ j rfl
      have := List.sizeOf_lt_of_mem hj
      simp; omega
    | object members =>
      refine object members fun m hm => ih _ ?_ m.2 rfl
      obtain ⟨key, j⟩ := m
      have := List.sizeOf_lt_of_mem hm
      simp at this ⊢; omega
    | _ => exact scalar _ (by simp) (by simp)

variable {v w : Json} {members members' : List (String × Json)}

theorem ReorderedMember.key_eq {m m' : String × Json} (h : ReorderedMember m m') : m.1 = m'.1 := by
  cases h
  rfl

theorem ReorderedMember.inside {m m' : String × Json} (h : ReorderedMember m m') :
    m.2.Reordered m'.2 := by
  obtain ⟨hinside⟩ := h
  exact hinside

/-- Reordered objects have the same keys. -/
theorem keys_perm (h : Matched ReorderedMember members members') :
    (members.map Prod.fst).Perm (members'.map Prod.fst) :=
  h.map_perm fun _ _ _ hm => hm.key_eq

theorem forall_key_iff (h : Matched ReorderedMember members members') (P : String → Prop) :
    (∀ m ∈ members, P m.1) ↔ ∀ m ∈ members', P m.1 := by
  simp only [← List.forall_mem_map (f := Prod.fst) (P := P), (keys_perm h).mem_iff]

theorem exists_key_iff (h : Matched ReorderedMember members members') (P : String → Prop) :
    (∃ m ∈ members, P m.1) ↔ ∃ m ∈ members', P m.1 := by
  rw [← not_iff_not]
  push Not
  exact forall_key_iff h fun key => ¬P key

theorem Reordered.exists_items {items : List Json} (h : (Json.array items).Reordered w) :
    ∃ items', w = .array items' ∧ List.Forall₂ Reordered items items' := by
  cases h with
  | scalar hnoArray _ => exact absurd rfl (hnoArray items)
  | array hitems => exact ⟨_, rfl, hitems⟩

theorem Reordered.exists_members (h : (Json.object members).Reordered w) :
    ∃ members', w = .object members' ∧ (members.map Prod.fst).Nodup ∧
      Matched ReorderedMember members members' := by
  cases h with
  | scalar _ hnoObject => exact absurd rfl (hnoObject members)
  | object hdistinct hmembers => exact ⟨_, rfl, hdistinct, hmembers⟩

theorem Reordered.symm (h : v.Reordered w) : w.Reordered v := by
  induction v using Json.induct generalizing w with
  | scalar json hnoArray hnoObject =>
    cases h with
    | scalar _ _ => exact .scalar hnoArray hnoObject
    | array _ => exact absurd rfl (hnoArray _)
    | object _ _ => exact absurd rfl (hnoObject _)
  | array items ih =>
    obtain ⟨items', rfl, hitems⟩ := h.exists_items
    exact .array (List.Forall₂.flip (forall₂_of_mem hitems fun j hj j' hjj' => ih j hj hjj'))
  | object members ih =>
    obtain ⟨members', rfl, hdistinct, hmembers⟩ := h.exists_members
    refine .object ((keys_perm hmembers).nodup_iff.1 hdistinct) (hmembers.flip_of_mem ?_)
    rintro ⟨key, j⟩ hm _ ⟨hinside⟩
    exact ⟨ih _ hm hinside⟩

/-- An object of one member. -/
theorem Reordered.single {key : String} (h : v.Reordered w) :
    (Json.object [(key, v)]).Reordered (.object [(key, w)]) :=
  .object (List.nodup_singleton key) (.of_forall₂ (.cons ⟨h⟩ .nil))

/-- A value of a kind has no members that could be reordered. -/
theorem Reordered.eq_of_isOfKind (h : v.Reordered w) {kind : ValueKind} (hkind : v.IsOfKind kind) :
    v = w := by
  cases h with
  | scalar _ _ => rfl
  | array _ => cases kind <;> exact hkind.elim
  | object _ _ => cases kind <;> exact hkind.elim

theorem Reordered.eq_of_isCount (h : v.Reordered w) {bound : Int} (hcount : v.IsCount bound) :
    v = w := by
  cases h with
  | scalar _ _ => rfl
  | array _ => exact hcount.elim
  | object _ _ => exact hcount.elim

end Json

/-! ## The grammar -/

section

variable {v w : Json} {members members' : List (String × Json)}

/-- An operand has no members that could be reordered. -/
theorem ValidOperand.eq_of_reordered {op : Operator} {kind : ValueKind}
    (hvalid : ValidOperand op kind v) (h : v.Reordered w) : v = w := by
  unfold ValidOperand at hvalid
  split at hvalid
  · obtain rfl | rfl := hvalid <;> cases h <;> rfl
  · unfold Operator.AppliesTo at hvalid
    split at hvalid
    · obtain ⟨flag, rfl⟩ := hvalid
      cases h
      rfl
    · split at hvalid
      · exact h.eq_of_isCount hvalid
      · split at hvalid
        · obtain ⟨text, rfl⟩ := hvalid
          cases h
          rfl
        · exact h.eq_of_isOfKind hvalid
  · obtain ⟨low, high, rfl, hlow, hhigh⟩ := hvalid
    obtain ⟨items', rfl, hitems⟩ := h.exists_items
    obtain _ | ⟨hfirst, _ | ⟨hsecond, _ | _⟩⟩ := hitems
    rw [hfirst.eq_of_isOfKind hlow, hsecond.eq_of_isOfKind hhigh]
  · obtain ⟨items, rfl, hkinds⟩ := hvalid
    obtain ⟨items', rfl, hitems⟩ := h.exists_items
    have hsame : List.Forall₂ Eq items items' :=
      forall₂_of_mem hitems fun j hj j' hjj' => hjj'.eq_of_isOfKind (hkinds j hj)
    rw [List.forall₂_eq_eq_eq] at hsame
    rw [hsame]

theorem ValidField.reordered {kind : ValueKind} (hvalid : ValidField kind v) (h : v.Reordered w) :
    ValidField kind w := by
  obtain ⟨hnonempty, hvalid⟩ := hvalid
  obtain ⟨members', rfl, -, hmembers⟩ := h.exists_members
  refine .tests (hmembers.ne_nil hnonempty) (hmembers.forall_mem ?_ hvalid)
  rintro ⟨key, j⟩ - _ ⟨hinside⟩ ⟨op, hname, hsupports, hoperand⟩
  exact ⟨op, hname, hsupports, hoperand.eq_of_reordered hinside ▸ hoperand⟩

mutual

/-- A filter is one in whatever order its members stand. -/
theorem ValidFilter.reordered {registry : Registry} {entity : Entity} {v w : Json} :
    ValidFilter registry entity v → v.Reordered w → ValidFilter registry entity w
  | .object hvalid, h => by
    obtain ⟨members', rfl, -, hmembers⟩ := h.exists_members
    refine .object fun m' hm' => ?_
    obtain ⟨m, hm, hinside⟩ := hmembers.exists_mem_left hm'
    rw [← hinside.key_eq]
    exact (hvalid m hm).reordered hinside.inside

theorem ValidMember.reordered {registry : Registry} {entity : Entity} {key : String} {v w : Json} :
    ValidMember registry entity key v → v.Reordered w → ValidMember registry entity key w
  | .list hword hvalid, h => by
    obtain ⟨items', rfl, hitems⟩ := h.exists_items
    refine .list hword fun j' hj' => ?_
    obtain ⟨j, hj, hinside⟩ := exists_mem_left hitems hj'
    exact (hvalid j hj).reordered hinside
  | .negation hword hvalid, h => .negation hword (hvalid.reordered h)
  | .field hword hfield hvalid, h => .field hword hfield (hvalid.reordered h)
  | .relation hword hfield hrelation htarget hvalid, h =>
    .relation hword hfield hrelation htarget (hvalid.reordered h)

theorem ValidRelation.reordered {registry : Registry} {relation : Relation} {target : Entity}
    {v w : Json} : ValidRelation registry relation target v → v.Reordered w →
      ValidRelation registry relation target w
  | .nested hoperator hkeyword hvalid, h => by
    have hfilter := hvalid.reordered h
    obtain ⟨members', rfl, -, hmembers⟩ := h.exists_members
    exact .nested ((Json.forall_key_iff hmembers fun key =>
      Operator.isName key = true → target.hasMember key = true).1 hoperator)
      ((Json.forall_key_iff hmembers fun key => isCollectionKeyword key = false).1 hkeyword) hfilter
  | .collection hoperator hmany hnonempty hvalid, h => by
    obtain ⟨members', rfl, -, hmembers⟩ := h.exists_members
    refine .collection ((Json.forall_key_iff hmembers fun key =>
      Operator.isName key = true → target.hasMember key = true).1 hoperator) hmany
      (hmembers.ne_nil hnonempty) fun m' hm' => ?_
    obtain ⟨m, hm, hinside⟩ := hmembers.exists_mem_left hm'
    rw [← hinside.key_eq]
    exact (hvalid m hm).reordered hinside.inside

theorem ValidKeyword.reordered {registry : Registry} {target : Entity} {key : String} {v w : Json} :
    ValidKeyword registry target key v → v.Reordered w → ValidKeyword registry target key w
  | .quantifier hkeyword hvalid, h => .quantifier hkeyword (hvalid.reordered h)
  | .emptiness hkeyword, .scalar _ _ => .emptiness hkeyword
  | .size hkeyword hcount, h => .size hkeyword (h.eq_of_isCount hcount ▸ hcount)

end

end

/-! ## The extent -/

namespace Extent

/-- The extent of several parts that stand beside one another. -/
def together (parts : List Extent) : Extent :=
  parts.foldr beside empty

@[simp] theorem together_cons (part : Extent) (parts : List Extent) :
    together (part :: parts) = part.beside (together parts) :=
  rfl

/-- A condition may be counted on either side. -/
theorem beside_counted (a b : Extent) : a.beside b.counted = a.counted.beside b := by
  simp [beside, counted, Nat.add_right_comm, Nat.add_assoc]

/-- The order of the parts does not count. -/
theorem together_perm {parts parts' : List Extent} (h : parts.Perm parts') :
    together parts = together parts' := by
  induction h with
  | nil => rfl
  | cons a _ ih => exact congrArg a.beside ih
  | swap a b parts =>
    simp only [together, List.foldr_cons, beside, Nat.max_left_comm, Nat.add_left_comm]
  | trans _ _ ih ih' => exact ih.trans ih'

end Extent

namespace Json

variable {registry : Registry} {entity : Entity} {v w : Json} {members : List (String × Json)}

theorem extentOfItems_eq (items : List Json) :
    extentOfItems registry entity items =
      .together (items.map fun j => (j.extent registry entity).deeper) := by
  induction items with
  | nil => rfl
  | cons j js ih => rw [extentOfItems, ih, List.map_cons, Extent.together_cons]

theorem extentOfMembers_eq (members : List (String × Json)) :
    extentOfMembers registry entity members =
      .together (members.map fun m => m.2.extentOfMember registry entity m.1) := by
  induction members with
  | nil => rfl
  | cons m ms ih => rw [extentOfMembers, ih, List.map_cons, Extent.together_cons]

/-- The extent of one keyword of a collection of rows of a target. -/
def extentOfKeyword (registry : Registry) (target : Entity) (key : String) (json : Json) : Extent :=
  match CollectionKeyword.ofName? key with
  | none => .empty
  | some (.quantifier _) => (json.extent registry target).deeper.counted
  | some _ => Extent.empty.counted

theorem extentOfKeywords_eq (members : List (String × Json)) :
    extentOfKeywords registry entity members =
      .together (members.map fun m => m.2.extentOfKeyword registry entity m.1) := by
  induction members with
  | nil => rfl
  | cons m ms ih =>
    obtain ⟨key, j⟩ := m
    rw [List.map_cons, Extent.together_cons, ← ih, extentOfKeywords, extentOfKeyword]
    cases CollectionKeyword.ofName? key with
    | none => exact (Extent.empty_beside _).symm
    | some keyword =>
      cases keyword with
      | quantifier q => exact Extent.beside_counted _ _
      | _ => exact (Extent.empty_beside _).symm.trans (Extent.beside_counted _ _)

/-- Reordered documents ask the same of the limits. -/
theorem Reordered.extent_eq_and (h : v.Reordered w) :
    (∀ entity, v.extent registry entity = w.extent registry entity) ∧
      ∀ entity key,
        v.extentOfMember registry entity key = w.extentOfMember registry entity key := by
  induction v using Json.induct generalizing w with
  | scalar json hnoArray hnoObject =>
    cases h with
    | scalar _ _ => exact ⟨fun _ => rfl, fun _ _ => rfl⟩
    | array _ => exact absurd rfl (hnoArray _)
    | object _ _ => exact absurd rfl (hnoObject _)
  | array items ih =>
    obtain ⟨items', rfl, hitems⟩ := h.exists_items
    refine ⟨fun _ => rfl, fun entity key => ?_⟩
    have hextents : extentOfItems registry entity items = extentOfItems registry entity items' := by
      rw [extentOfItems_eq, extentOfItems_eq]
      exact Extent.together_perm ((Matched.of_forall₂ hitems).map_perm
        fun j hj j' hjj' => congrArg Extent.deeper ((ih j hj hjj').1 entity))
    rw [extentOfMember, extentOfMember, hextents]
  | object members ih =>
    obtain ⟨members', rfl, -, hmembers⟩ := h.exists_members
    have hfilter (entity : Entity) : extentOfMembers registry entity members =
        extentOfMembers registry entity members' := by
      rw [extentOfMembers_eq, extentOfMembers_eq]
      refine Extent.together_perm (hmembers.map_perm ?_)
      rintro ⟨key, j⟩ hm _ ⟨hinside⟩
      exact (ih _ hm hinside).2 entity key
    have hkeywords (target : Entity) : extentOfKeywords registry target members =
        extentOfKeywords registry target members' := by
      rw [extentOfKeywords_eq, extentOfKeywords_eq]
      refine Extent.together_perm (hmembers.map_perm ?_)
      rintro ⟨key, j⟩ hm _ ⟨hinside⟩
      unfold extentOfKeyword
      rw [(ih _ hm hinside).1 target]
    have hkeyword : (members.any fun m => isCollectionKeyword m.1) =
        members'.any fun m => isCollectionKeyword m.1 := by
      rw [Bool.eq_iff_iff, List.any_eq_true, List.any_eq_true]
      exact exists_key_iff hmembers fun key => isCollectionKeyword key = true
    refine ⟨hfilter, fun entity key => ?_⟩
    unfold extentOfMember
    simp only [hfilter, hkeywords, hkeyword, hmembers.length_eq]

/-- Reordered documents ask the same of the limits. -/
theorem Reordered.extent_eq (h : v.Reordered w) (registry : Registry) (entity : Entity) :
    v.extent registry entity = w.extent registry entity :=
  h.extent_eq_and.1 entity

/-! ## Shape and keys -/

theorem Shaped.reordered {levels : Nat} (hshaped : v.Shaped levels) (h : v.Reordered w) :
    w.Shaped levels := by
  induction levels generalizing v w with
  | zero => exact hshaped
  | succ levels ih =>
    obtain ⟨members, rfl, hshaped⟩ := hshaped
    obtain ⟨members', rfl, -, hmembers⟩ := h.exists_members
    refine ⟨members', rfl, hmembers.forall_mem ?_ hshaped⟩
    rintro ⟨key, j⟩ - _ ⟨hinside⟩ ⟨hlist, hnegation⟩
    refine ⟨fun hword => ?_, fun hword => ih (hnegation hword) hinside⟩
    obtain ⟨items, rfl, hitems⟩ := hlist hword
    obtain ⟨items', rfl, hpairs⟩ := hinside.exists_items
    exact ⟨items', rfl, forall_mem_right hpairs fun j hj j' hjj' => ih (hitems j hj) hjj'⟩

theorem Mentions.reordered {key : String} (hmentions : v.Mentions key) (h : v.Reordered w) :
    w.Mentions key := by
  induction hmentions generalizing w with
  | member hword hm =>
    obtain ⟨members', rfl, -, hmembers⟩ := h.exists_members
    obtain ⟨⟨key', j'⟩, hm', hinside⟩ := hmembers.exists_mem_right hm
    cases hinside
    exact .member hword hm'
  | item hword hm hitem _ ih =>
    obtain ⟨members', rfl, -, hmembers⟩ := h.exists_members
    obtain ⟨⟨key', j'⟩, hm', hinside⟩ := hmembers.exists_mem_right hm
    obtain ⟨hinside⟩ := hinside
    obtain ⟨items', rfl, hitems⟩ := hinside.exists_items
    obtain ⟨j, hj, hinside⟩ := exists_mem_right hitems hitem
    exact .item hword hm' hj (ih hinside)
  | negated hm _ ih =>
    obtain ⟨members', rfl, -, hmembers⟩ := h.exists_members
    obtain ⟨⟨key', j'⟩, hm', hinside⟩ := hmembers.exists_mem_right hm
    obtain ⟨hinside⟩ := hinside
    exact .negated hm' (ih hinside)

end Json

end FilterQuery
