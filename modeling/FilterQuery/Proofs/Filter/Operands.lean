import FilterQuery.Proofs.Filter.Grammar
import FilterQuery.Proofs.Filter.Typed

/-!
# The operands that are read

Reading an operand goes by its shape first and checks its values afterwards. Together the two steps
succeed on exactly the operands of the grammar (`Operand.exists_operand`), and so does reading a
test (`FilterDocument.exists_test`). An integer that 64 bits do not hold is read as a double, which
makes no difference: no kind but the doubles has it, and no number of days is as great.
-/

namespace FilterQuery

variable {name : String} {op : Operator} {kind : ValueKind} {json : Json}

/-! ## Single values -/

/-- An integer stays one as far as 64 bits hold it. -/
theorem Value.ofInteger_cases (n : Int) :
    ((minInt64 ≤ n ∧ n ≤ maxInt64) ∧ ofInteger n = .integer n) ∨
      (¬(minInt64 ≤ n ∧ n ≤ maxInt64) ∧ ofInteger n = .float (.ofInt n)) := by
  simp only [ofInteger, Bool.and_eq_true, decide_eq_true_eq]
  split
  · rename_i hfits
    exact Or.inl ⟨hfits, rfl⟩
  · rename_i hfits
    exact Or.inr ⟨hfits, rfl⟩

namespace Operand

/-- What can be said of the single value that is read, if one is: null, arrays and objects are not
read as one. -/
theorem exists_scalar {P : Value → Prop} :
    (∃ value, scalar name op json = .ok value ∧ P value) ↔
      match json with
      | .bool b => P (.bool b)
      | .integer n => P (.ofInteger n)
      | .float x => P (.float x)
      | .text s => P (.text s)
      | _ => False := by
  cases json with
  | integer n =>
    obtain ⟨-, hread⟩ | ⟨-, hread⟩ := Value.ofInteger_cases n
    · simp [scalar, Value.ofJson?, hread]
    · simp [scalar, Value.ofJson?, hread]
  | array items =>
    simp only [scalar, Value.ofJson?]
    cases Value.ofItems? items <;> simp
  | _ => simp [scalar, Value.ofJson?]

/-- The values that suit a kind are read from the JSON values of the kind. -/
theorem exists_scalar_suits (name : String) (op : Operator) :
    (∃ value, scalar name op json = .ok value ∧ suits kind value = true) ↔
      json.IsOfKind kind := by
  rw [exists_scalar]
  cases json with
  | bool b => cases kind <;> simp [suits, ValueKind.coerce, Json.IsOfKind]
  | integer n =>
    obtain ⟨hfits, hread⟩ | ⟨hfits, hread⟩ := Value.ofInteger_cases n
    · cases kind <;> simp [suits, ValueKind.coerce, Json.IsOfKind, hread, hfits]
    · cases kind <;> simp [suits, ValueKind.coerce, Json.IsOfKind, hread, hfits]
  | float x => cases kind <;> simp [suits, ValueKind.coerce, Json.IsOfKind]
  | text s => cases kind <;> simp [suits, ValueKind.coerce, Json.IsOfKind]
  | _ => simp [Json.IsOfKind]

theorem exists_scalar_isBool :
    (∃ value, scalar name op json = .ok value ∧ value.isBool = true) ↔
      ∃ flag, json = .bool flag := by
  rw [exists_scalar]
  cases json with
  | integer n =>
    obtain ⟨-, hread⟩ | ⟨-, hread⟩ := Value.ofInteger_cases n <;> simp [hread, Value.isBool]
  | _ => simp [Value.isBool]

theorem exists_scalar_isText :
    (∃ value, scalar name op json = .ok value ∧ value.isText = true) ↔
      ∃ text, json = .text text := by
  rw [exists_scalar]
  cases json with
  | integer n =>
    obtain ⟨-, hread⟩ | ⟨-, hread⟩ := Value.ofInteger_cases n <;> simp [hread, Value.isText]
  | _ => simp [Value.isText]

theorem exists_scalar_isDayCount :
    (∃ value, scalar name op json = .ok value ∧ isDayCount value = true) ↔
      json.IsCount maxRelativeDays := by
  rw [exists_scalar]
  cases json with
  | integer n =>
    obtain ⟨-, hread⟩ | ⟨hfits, hread⟩ := Value.ofInteger_cases n
    · simp [hread, isDayCount, Json.IsCount]
    · -- an integer that 64 bits do not hold is no number of days either
      simp only [minInt64, maxInt64] at hfits
      simp only [hread, isDayCount, Json.IsCount, maxRelativeDays]
      simp
      omega
  | _ => simp [isDayCount, Json.IsCount]

/-! ## Operands -/

/-- The operand of an operator that takes one passes the check for its own reason. -/
theorem verdict_single (hshape : op.shape = .single) (value : Value) :
    (verdict op kind (.single value)).1 =
      if op = .isNull then value.isBool
      else if op = .lastNDays ∨ op = .olderThanDays then isDayCount value
      else if op.isPattern then value.isText
      else suits kind value := by
  cases op <;> simp_all [verdict, Operator.shape, Operator.isPattern]

theorem exists_single (name : String) (hshape : op.shape = .single) :
    (∃ value, scalar name op json = .ok value ∧ (verdict op kind (.single value)).1 = true) ↔
      op.AppliesTo kind json := by
  simp only [verdict_single hshape, Operator.AppliesTo]
  split
  · exact exists_scalar_isBool
  · split
    · exact exists_scalar_isDayCount
    · split
      · exact exists_scalar_isText
      · exact exists_scalar_suits name op

theorem exists_scalars_suit (name : String) (op : Operator) {js : List Json} :
    (∃ values, scalars name op js = .ok values ∧ values.all (suits kind) = true) ↔
      ∀ j ∈ js, j.IsOfKind kind := by
  induction js with
  | nil => simp [scalars]
  | cons j js ih =>
    rw [List.forall_mem_cons, ← ih, ← exists_scalar_suits name op]
    simp only [scalars, bind_eq_ok]
    constructor
    · rintro ⟨_, ⟨v, hv, vs, hvs, ⟨⟩⟩, hall⟩
      simp only [List.all_cons, Bool.and_eq_true] at hall
      exact ⟨⟨v, hv, hall.1⟩, vs, hvs, hall.2⟩
    · rintro ⟨⟨v, hv, hsuits⟩, vs, hvs, hall⟩
      exact ⟨_, ⟨v, hv, vs, hvs, rfl⟩, by simp [hsuits, hall]⟩

/-- The operand of an operator that takes one is read as a single value. -/
theorem ofJson_single (hshape : op.shape = .single) {operand : Operand} :
    ofJson name op json = .ok operand ↔
      ∃ value, scalar name op json = .ok value ∧ .single value = operand := by
  rw [exists_scalar]
  cases json with
  | integer n =>
    obtain ⟨-, hread⟩ | ⟨-, hread⟩ := Value.ofInteger_cases n
    · simp [ofJson, hshape, scalar, Value.ofJson?, hread, Except.map]
    · simp [ofJson, hshape, scalar, Value.ofJson?, hread, Except.map]
  | _ => simp [ofJson, hshape, scalar, Value.ofJson?, Except.map]

theorem ofJson_pair (hshape : op.shape = .pair) {operand : Operand} :
    ofJson name op json = .ok operand ↔
      ∃ low high, json = .array [low, high] ∧ ∃ l, scalar name op low = .ok l ∧
        ∃ h, scalar name op high = .ok h ∧ .pair l h = operand := by
  simp only [ofJson, hshape]
  split
  · simp only [bind_eq_ok, Json.array.injEq, List.cons.injEq, and_true, Except.ok.injEq]
    constructor
    · intro h
      exact ⟨_, _, ⟨rfl, rfl⟩, h⟩
    · rintro ⟨_, _, ⟨rfl, rfl⟩, h⟩
      exact h
  · rename_i hother
    simp only [reduceCtorEq, false_iff, not_exists, not_and]
    rintro low high rfl
    exact absurd rfl (hother low high)

theorem ofJson_list (hshape : op.shape = .list) {operand : Operand} :
    ofJson name op json = .ok operand ↔
      ∃ items, json = .array items ∧ ∃ values, scalars name op items = .ok values ∧
        .list values = operand := by
  simp only [ofJson, hshape]
  split
  · simp [map_eq_ok]
  · rename_i hother
    simp only [reduceCtorEq, false_iff, not_exists, not_and]
    rintro items rfl
    exact absurd rfl (hother items)

theorem exists_operand (name : String) :
    (∃ operand, ofJson name op json = .ok operand ∧ operand.check name op kind = .ok ()) ↔
      ValidOperand op kind json := by
  simp only [FilterDocument.check_eq_ok, ValidOperand]
  cases hshape : op.shape with
  | nothing =>
    simp only [ofJson, hshape]
    split
    · simp [verdict, hshape]
    · simp [verdict, hshape]
    · simp_all
  | single =>
    simp only [ofJson_single hshape, ← exists_single name hshape]
    constructor
    · rintro ⟨_, ⟨value, hvalue, rfl⟩, hverdict⟩
      exact ⟨value, hvalue, hverdict⟩
    · rintro ⟨value, hvalue, hverdict⟩
      exact ⟨_, ⟨value, hvalue, rfl⟩, hverdict⟩
  | pair =>
    simp only [ofJson_pair hshape, ← exists_scalar_suits name op]
    constructor
    · rintro ⟨_, ⟨low, high, rfl, l, hl, h, hh, rfl⟩, hverdict⟩
      simp only [verdict, Bool.and_eq_true] at hverdict
      exact ⟨low, high, rfl, ⟨l, hl, hverdict.1.2⟩, h, hh, hverdict.2⟩
    · rintro ⟨low, high, rfl, ⟨l, hl, hlow⟩, h, hh, hhigh⟩
      exact ⟨_, ⟨low, high, rfl, l, hl, h, hh, rfl⟩, by simp [verdict, hshape, hlow, hhigh]⟩
  | list =>
    simp only [ofJson_list hshape, ← exists_scalars_suit name op]
    constructor
    · rintro ⟨_, ⟨items, rfl, values, hvalues, rfl⟩, hverdict⟩
      simp only [verdict, Bool.and_eq_true] at hverdict
      exact ⟨items, rfl, values, hvalues, hverdict.2⟩
    · rintro ⟨items, rfl, values, hvalues, hall⟩
      exact ⟨_, ⟨items, rfl, values, hvalues, rfl⟩, by simp [verdict, hshape, hall]⟩

end Operand

/-- A test is read from exactly the operators of the kind with an operand of theirs. -/
theorem FilterDocument.exists_test (name : String) {key : String} :
    (∃ test, readTest name kind key json = .ok test) ↔ ValidTest kind key json := by
  rw [ValidTest, readTest]
  split
  · rename_i hnone
    rw [Option.filter_eq_none_iff] at hnone
    simp only [reduceCtorEq, exists_false, false_iff]
    rintro ⟨op, hop, hsupports, -⟩
    exact hnone op hop hsupports
  · rename_i op hop
    obtain ⟨hname, hsupports⟩ := Option.filter_eq_some_iff.1 hop
    simp only [bind_eq_ok, hname, Option.some.injEq, exists_eq_left', hsupports, true_and]
    rw [← Operand.exists_operand name]
    constructor
    · rintro ⟨_, operand, hread, ⟨⟩, hcheck, -⟩
      exact ⟨operand, hread, hcheck⟩
    · rintro ⟨operand, hread, hcheck⟩
      exact ⟨_, operand, hread, (), hcheck, rfl⟩

end FilterQuery
