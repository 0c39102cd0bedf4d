import FilterQuery.Proofs.Condition.Blank
import FilterQuery.Proofs.Condition.Compiling
import FilterQuery.Proofs.Filter.Skeleton
import FilterQuery.Proofs.Meaning.FieldTests

/-!
# Filters of one skeleton

Two filters of one skeleton that are resolved over one plan, each at its own time, become
conditions that are alike (`Resolution.filter_alike`): without their values they are the same
condition, and where the sources of two parameters agree the parameters agree. So a parameter can
differ only where an operand, a size or the clock that it is made from does.
-/

namespace FilterQuery

open List (Forall₂)

/-! ## Parameters and their sources -/

/-- Two lists of parameters, each with what they are made from: there are as many parameters as
sources, and parameters made from the same source are the same. -/
inductive BoundAlike : List Source → List Source → List Parameter → List Parameter → Prop
  | nil : BoundAlike [] [] [] []
  | cons {s s' p p' ss ss' ps ps'} : (s = s' → p = p') → BoundAlike ss ss' ps ps' →
      BoundAlike (s :: ss) (s' :: ss') (p :: ps) (p' :: ps')

namespace BoundAlike

variable {ss ss' ts ts' : List Source} {ps ps' qs qs' : List Parameter}

theorem append (h : BoundAlike ss ss' ps ps') (h' : BoundAlike ts ts' qs qs') :
    BoundAlike (ss ++ ts) (ss' ++ ts') (ps ++ qs) (ps' ++ qs') := by
  induction h with
  | nil => exact h'
  | cons hsame _ ih => exact .cons hsame ih

theorem single {s s' : Source} {p p' : Parameter} (h : s = s' → p = p') :
    BoundAlike [s] [s'] [p] [p'] :=
  .cons h .nil

theorem lengths (h : BoundAlike ss ss' ps ps') :
    ps.length = ss.length ∧ ps'.length = ss'.length ∧ ss.length = ss'.length := by
  induction h with
  | nil => exact ⟨rfl, rfl, rfl⟩
  | cons _ _ ih => simp only [List.length_cons, ih, and_self]

/-- Where the sources agree the parameters agree. -/
theorem getElem?_eq (h : BoundAlike ss ss' ps ps') (k : Nat) (hk : ss[k]? = ss'[k]?) :
    ps[k]? = ps'[k]? := by
  induction h generalizing k with
  | nil => rfl
  | cons hsame _ ih =>
    cases k with
    | zero =>
      have hsource := Option.some.inj hk
      exact congrArg some (hsame hsource)
    | succ k => exact ih k hk

end BoundAlike

/-! ## Conditions that are alike -/

/-- Conditions that are the same but for their values, and whose values agree where their sources
do. -/
structure Condition.Alike (d : Dialect) (ss ss' : List Source) (c c' : Condition) : Prop where
  blank : c.blank = c'.blank
  bound : BoundAlike ss ss' (c.fragment d).parameters (c'.fragment d).parameters

/-- Lists of conditions that are alike, item by item. -/
structure Condition.AllAlike (d : Dialect) (ss ss' : List Source) (cs cs' : List Condition) :
    Prop where
  blank : cs.map Condition.blank = cs'.map Condition.blank
  bound : BoundAlike ss ss' (cs.flatMap fun c => (c.fragment d).parameters)
    (cs'.flatMap fun c => (c.fragment d).parameters)

namespace Condition

open Fragment (parameters parameters_append parameters_grouped)

variable {d : Dialect} {ss ss' ts ts' : List Source} {c c' : Condition}
  {cs cs' ds ds' : List Condition}

theorem allAlike_nil (d : Dialect) : AllAlike d [] [] [] [] :=
  ⟨rfl, .nil⟩

theorem Alike.cons (h : Alike d ss ss' c c') (hs : AllAlike d ts ts' cs cs') :
    AllAlike d (ss ++ ts) (ss' ++ ts') (c :: cs) (c' :: cs') where
  blank := by rw [List.map_cons, List.map_cons, h.blank, hs.blank]
  bound := by
    rw [List.flatMap_cons, List.flatMap_cons]
    exact h.bound.append hs.bound

theorem Alike.singleton (h : Alike d ss ss' c c') : AllAlike d ss ss' [c] [c'] := by
  have hlist := h.cons (allAlike_nil d)
  rwa [List.append_nil, List.append_nil] at hlist

/-- What holds of the items of two lists, taken in pairs, makes the lists of conditions alike. -/
theorem allAlike_of_forall₂ {α β : Type} {R R' : α → Condition → Prop} {skeleton : α → β}
    {sources sources' : α → List Source} {as bs : List α} (h : Forall₂ R as cs)
    (h' : Forall₂ R' bs cs') (hskeleton : as.map skeleton = bs.map skeleton)
    (halike : ∀ a ∈ as, ∀ b c c', skeleton a = skeleton b → R a c → R' b c' →
      Alike d (sources a) (sources' b) c c') :
    AllAlike d (as.flatMap sources) (bs.flatMap sources') cs cs' := by
  induction h generalizing bs cs' with
  | nil =>
    obtain rfl : bs = [] := by simpa using hskeleton.symm
    cases h'
    exact allAlike_nil d
  | @cons a c as cs hc _ ih =>
    cases h' with
    | nil => cases hskeleton
    | @cons b c' bs cs' hc' hcs' =>
      obtain ⟨hhead, htail⟩ := List.cons.inj hskeleton
      rw [List.flatMap_cons, List.flatMap_cons]
      refine (halike a List.mem_cons_self b c c' hhead hc hc').cons (ih hcs' htail ?_)
      exact fun e he => halike e (List.mem_cons_of_mem a he)

theorem AllAlike.append (h : AllAlike d ss ss' cs cs') (hs : AllAlike d ts ts' ds ds') :
    AllAlike d (ss ++ ts) (ss' ++ ts') (cs ++ ds) (cs' ++ ds') where
  blank := by rw [List.map_append, List.map_append, h.blank, hs.blank]
  bound := by
    rw [List.flatMap_append, List.flatMap_append]
    exact h.bound.append hs.bound

theorem flatMap_parameters_fragments (d : Dialect) (cs : List Condition) :
    (fragments d cs).flatMap parameters = cs.flatMap fun c => (c.fragment d).parameters := by
  induction cs with
  | nil => rfl
  | cons c cs ih => rw [fragments, List.flatMap_cons, List.flatMap_cons, ih]

theorem parameters_allOf (d : Dialect) (cs : List Condition) :
    ((allOf cs).fragment d).parameters = cs.flatMap fun c => (c.fragment d).parameters := by
  match cs with
  | [] => rfl
  | [c] => simp [allOf]
  | c :: e :: cs =>
    rw [allOf, Condition.fragment, parameters_grouped, flatMap_parameters_fragments]
    · simp
    · simp

theorem parameters_anyOf (d : Dialect) (cs : List Condition) :
    ((anyOf cs).fragment d).parameters = cs.flatMap fun c => (c.fragment d).parameters := by
  match cs with
  | [] => rfl
  | [c] => simp [anyOf]
  | c :: e :: cs =>
    rw [anyOf, Condition.fragment, parameters_grouped, flatMap_parameters_fragments]
    · simp
    · simp

theorem AllAlike.allOf (h : AllAlike d ss ss' cs cs') : Alike d ss ss' (allOf cs) (allOf cs') where
  blank := by rw [blank_allOf, blank_allOf, h.blank]
  bound := by
    rw [parameters_allOf, parameters_allOf]
    exact h.bound

theorem AllAlike.anyOf (h : AllAlike d ss ss' cs cs') : Alike d ss ss' (anyOf cs) (anyOf cs') where
  blank := by rw [blank_anyOf, blank_anyOf, h.blank]
  bound := by
    rw [parameters_anyOf, parameters_anyOf]
    exact h.bound

theorem Alike.not (h : Alike d ss ss' c c') : Alike d ss ss' (.not c) (.not c') where
  blank := by simp only [Condition.blank, h.blank]
  bound := by simpa [Condition.fragment] using h.bound

theorem AllAlike.map_not (h : AllAlike d ss ss' cs cs') :
    AllAlike d ss ss' (cs.map .not) (cs'.map .not) where
  blank := by
    have hblank : Condition.blank ∘ Condition.not = Condition.not ∘ Condition.blank := by
      funext c
      simp only [Function.comp, Condition.blank]
    rw [List.map_map, List.map_map, hblank, ← List.map_map, h.blank, List.map_map]
  bound := by
    have hsame : ∀ c : Condition, ((Condition.not c).fragment d).parameters =
        (c.fragment d).parameters := by
      intro c
      simp [Condition.fragment]
    simp only [List.flatMap_map, hsame]
    exact h.bound

/-- A disjunction that is left out where it is empty. -/
theorem AllAlike.anyOf_or_nil (h : AllAlike d ss ss' cs cs') :
    AllAlike d ss ss' (if cs.isEmpty then [] else [Condition.anyOf cs])
      (if cs'.isEmpty then [] else [Condition.anyOf cs']) := by
  cases cs with
  | nil =>
    obtain rfl : cs' = [] := by simpa using h.blank.symm
    exact h
  | cons c cs =>
    cases cs' with
    | nil => cases h.blank
    | cons c' cs' => exact h.anyOf.singleton

theorem Alike.notTrue (h : Alike d ss ss' c c') : Alike d ss ss' (.notTrue c) (.notTrue c') where
  blank := by simp only [Condition.blank, h.blank]
  bound := by simpa [Condition.fragment] using h.bound

end Condition

/-! ## Subqueries -/

open Fragment (parameters parameters_append)

theorem parameters_columnsMatch (d : Dialect) (columns : List (String × String))
    (source target : String) :
    ((columnsMatch columns source target).fragment d).parameters = [] := by
  rw [columnsMatch, Condition.parameters_allOf, List.flatMap_eq_nil_iff, List.forall_mem_map]
  intro p _
  rfl

theorem parameters_joins (d : Dialect) (js : List PlannedJoin) :
    (Join.fragments d (js.map PlannedJoin.join)).parameters = [] := by
  induction js with
  | nil => rfl
  | cons j js ih =>
    simp only [List.map_cons, PlannedJoin.join, PlannedJoin.condition, Join.fragments,
      parameters_append, parameters_columnsMatch, ih]
    rfl

theorem parameters_of_isAlways {c : Condition} (h : c.isAlways = true) (d : Dialect) :
    (c.fragment d).parameters = [] := by
  cases c <;> first | rfl | cases h

namespace JoinPlan

/-- The values of a subquery of a plan are those of the filter on its rows. -/
theorem parameters_subquery (plan : JoinPlan) (j : PlannedJoin) (d : Dialect) (selected : String)
    (c : Condition) :
    ((plan.subquery j c).fragment d selected).parameters = (c.fragment d).parameters := by
  simp only [subquery, Subquery.fragment, parameters_append, parameters_joins,
    PlannedJoin.condition, parameters_columnsMatch]
  split
  · rename_i halways
    rw [parameters_of_isAlways halways]
    rfl
  · rfl

theorem blank_subquery (plan : JoinPlan) (j : PlannedJoin) {c c' : Condition}
    (h : c.blank = c'.blank) :
    (plan.subquery j c).blank = (plan.subquery j c').blank := by
  simp only [subquery, Subquery.blank, h]

end JoinPlan

namespace Resolution

variable {registry : Registry} {plan : JoinPlan} {now now' : Instant} {place : ResolveScope}
  {d : Dialect} {ss ss' : List Source} {c c' : Condition}

theorem hasRow_alike (h : c.Alike d ss ss' c') (plan : JoinPlan) (j : PlannedJoin)
    (negated : Bool) :
    (Condition.hasRow (plan.subquery j c) negated).Alike d ss ss'
      (.hasRow (plan.subquery j c') negated) where
  blank := by simp only [Condition.blank, plan.blank_subquery j h.blank]
  bound := by
    simp only [Condition.fragment, parameters_append, Fragment.parameters_ofText,
      JoinPlan.parameters_subquery, List.nil_append, List.append_nil]
    exact h.bound

theorem quantified_alike (h : c.Alike d ss ss' c') (plan : JoinPlan) (j : PlannedJoin)
    (q : Quantifier) : (quantified plan j q c).Alike d ss ss' (quantified plan j q c') := by
  cases q with
  | any => exact hasRow_alike h plan j false
  | all => exact hasRow_alike h.notTrue plan j true
  | none => exact hasRow_alike h plan j true

theorem nestedCondition_alike (h : c.Alike d ss ss' c') (plan : JoinPlan) (j : PlannedJoin) :
    (nestedCondition plan j c).Alike d ss ss' (nestedCondition plan j c') := by
  simp only [nestedCondition]
  split
  · exact hasRow_alike h plan j false
  · exact h

theorem rowCount_alike (d : Dialect) (plan : JoinPlan) (j : PlannedJoin) (op : Comparison)
    (m n : Nat) :
    (Condition.rowCount (plan.subquery j .always) op m).Alike d [.size m] [.size n]
      (.rowCount (plan.subquery j .always) op n) where
  blank := by simp only [Condition.blank]
  bound := by
    simp only [Condition.fragment, parameters_append, Fragment.parameters_ofText,
      JoinPlan.parameters_subquery, Fragment.parameters_ofValue, List.nil_append]
    refine .single fun h => ?_
    rw [Source.size.inj h]

/-! ## Tests on fields -/

section Tests

variable {t u : FieldTest} {kind : ValueKind} {column : ColumnRef} {v w : Value}

theorem singleTest_isNull (hop : t.op = .isNull) (h : singleTest now t kind column v = .ok c) :
    ∃ b, v = .bool b ∧ c = .isNull column (!b) := by
  obtain ⟨name, op, operand⟩ := t
  obtain rfl : op = .isNull := hop
  cases v with
  | bool b => exact ⟨b, rfl, (Except.ok.inj h).symm⟩
  | null | integer _ | float _ | text _ | list _ => cases h

theorem singleTest_lastNDays (hop : t.op = .lastNDays)
    (h : singleTest now t kind column v = .ok c) :
    ∃ n start, v = .integer n ∧ now.subDays? n = some start ∧
      c = Window.condition column start now := by
  obtain ⟨name, op, operand⟩ := t
  obtain rfl : op = .lastNDays := hop
  cases v with
  | integer n =>
    simp only [singleTest, Window.lastDays] at h
    split at h
    · rename_i start hstart
      exact ⟨n, start, rfl, hstart, (Except.ok.inj h).symm⟩
    · cases h
  | null | bool _ | float _ | text _ | list _ => cases h

theorem singleTest_olderThanDays (hop : t.op = .olderThanDays)
    (h : singleTest now t kind column v = .ok c) :
    ∃ n stop, v = .integer n ∧ now.subDays? n = some stop ∧
      c = .compare column .lt (.timestamp stop) := by
  obtain ⟨name, op, operand⟩ := t
  obtain rfl : op = .olderThanDays := hop
  cases v with
  | integer n =>
    simp only [singleTest, Window.olderThan] at h
    split at h
    · rename_i stop hstop
      exact ⟨n, stop, rfl, hstop, (Except.ok.inj h).symm⟩
    · cases h
  | null | bool _ | float _ | text _ | list _ => cases h

/-- A test with a pattern resolves for texts only, and what becomes of the text depends on the
operator. -/
theorem singleTest_isPattern (hop : t.op.isPattern = true)
    (h : singleTest now t kind column v = .ok c) :
    ∃ text, v = .text text ∧ patternTest t column text = .ok c := by
  cases v with
  | text s =>
    rw [singleTest_pattern hop] at h
    exact ⟨s, rfl, h⟩
  | null | bool _ | integer _ | float _ | list _ =>
    obtain ⟨name, op, operand⟩ := t
    cases op <;> cases hop <;> cases h

/-- What a test with one operand is made of, by its operator. -/
theorem op_cases (h : singleTest now t kind column v = .ok c) :
    t.op = .isNull ∨ t.op = .lastNDays ∨ t.op = .olderThanDays ∨ t.op.isPattern = true ∨
      ∃ comparison, comparison? t.op = some comparison := by
  unfold singleTest at h
  split at h
  · exact .inl (by assumption)
  · exact .inr (.inl (by assumption))
  · exact .inr (.inr (.inl (by assumption)))
  · split at h
    · exact .inr (.inr (.inr (.inl (by assumption))))
    · split at h
      · cases h
      · exact .inr (.inr (.inr (.inr ⟨_, by assumption⟩)))

theorem like_alike {s s' : Source} {pattern pattern' : String}
    (hsame : s = s' → pattern = pattern') (ignoreCase escaped negated : Bool) :
    (Condition.like column pattern ignoreCase escaped negated).Alike d [s] [s']
      (.like column pattern' ignoreCase escaped negated) := by
  refine ⟨rfl, ?_⟩
  have hescape : (escapeClause escaped).parameters = [] := by
    cases escaped <;> rfl
  simp only [Condition.fragment, parameters_append, Fragment.parameters_ofText,
    Fragment.parameters_ofValue, hescape]
  exact .single fun h => by rw [hsame h]

theorem patternTest_alike {text text' : String} (hop : t.op = u.op)
    (h : patternTest t column text = .ok c) (h' : patternTest u column text' = .ok c') :
    c.Alike d [.operand (.text text)] [.operand (.text text')] c' := by
  have hsame : Source.operand (.text text) = .operand (.text text') → text = text' := by
    intro hsource
    simpa using hsource
  rw [patternTest] at h
  rw [patternTest, ← hop] at h'
  cases hposition : literalPosition? t.op with
  | none =>
    simp only [hposition, Except.ok.injEq] at h h'
    subst h h'
    exact like_alike hsame _ _ _
  | some position =>
    simp only [hposition, Except.ok.injEq] at h h'
    subst h h'
    exact like_alike (fun hsource => by rw [hsame hsource]) _ _ _

theorem window_alike {s₁ s₁' s₂ s₂' : Source} {start start' stop stop' : Instant}
    (hstart : s₁ = s₁' → start = start') (hstop : s₂ = s₂' → stop = stop') :
    (Window.condition column start stop).Alike d [s₁, s₂] [s₁', s₂']
      (Window.condition column start' stop') := by
  refine ⟨rfl, .cons (fun h => ?_) (.single fun h => ?_)⟩
  · rw [hstart h]
  · rw [hstop h]

theorem ofOperator_eq_ok {op : Operator} (h : Window.ofOperator op now column = .ok c) :
    ∃ start stop, Window.calendar? op now = some (some start, some stop) ∧
      c = Window.condition column start stop := by
  rw [Window.ofOperator] at h
  split at h
  · rename_i start stop hwindow
    exact ⟨start, stop, hwindow, (Except.ok.inj h).symm⟩
  · cases h
  · cases h

theorem sources_nothing {window : Option Instant × Option Instant}
    (hop : Window.calendar? t.op now = some window) (ht : t.operand = .nothing) :
    t.sources now = [.clock now, .clock now] := by
  obtain ⟨name, op, operand⟩ := t
  obtain rfl : operand = .nothing := ht
  cases op <;> first | rfl | cases hop

theorem sources_single (hop : t.op.isPattern = true ∨ ∃ op, comparison? t.op = some op)
    (hv : t.operand = .single v) : t.sources now = [.operand v] := by
  obtain ⟨name, op, operand⟩ := t
  obtain rfl : operand = .single v := hv
  cases op with
  | isNull | lastNDays | olderThanDays => simp [Operator.isPattern, comparison?] at hop
  | _ => rfl

theorem singleTest_alike (hop : t.op = u.op) (ht : t.operand = .single v)
    (hu : u.operand = .single w) (hskeleton : v.skeleton t.op = w.skeleton t.op)
    (h : singleTest now t kind column v = .ok c)
    (h' : singleTest now' u kind column w = .ok c') :
    c.Alike d (t.sources now) (u.sources now') c' := by
  rcases op_cases h with hnull | hlast | holder | hpattern | ⟨comparison, hcomparison⟩
  · obtain ⟨b, rfl, rfl⟩ := singleTest_isNull hnull h
    obtain ⟨b', rfl, rfl⟩ := singleTest_isNull (hop ▸ hnull) h'
    have hb : b = b' := by simpa [Value.skeleton, hnull] using hskeleton
    have hnone : t.sources now = [] ∧ u.sources now' = [] := by
      simp only [FieldTest.sources, ← hop, hnull, and_self]
    rw [hnone.1, hnone.2, hb]
    exact ⟨rfl, .nil⟩
  · obtain ⟨n, start, rfl, hstart, rfl⟩ := singleTest_lastNDays hlast h
    obtain ⟨n', start', rfl, hstart', rfl⟩ := singleTest_lastNDays (hop ▸ hlast) h'
    simp only [FieldTest.sources, ← hop, hlast, ht, hu]
    refine window_alike ?_ ?_
    · intro hsource
      obtain ⟨hvalue, rfl⟩ := Source.days.inj hsource
      obtain rfl := Value.integer.inj hvalue
      exact Option.some.inj (hstart.symm.trans hstart')
    · exact Source.clock.inj
  · obtain ⟨n, stop, rfl, hstop, rfl⟩ := singleTest_olderThanDays holder h
    obtain ⟨n', stop', rfl, hstop', rfl⟩ := singleTest_olderThanDays (hop ▸ holder) h'
    simp only [FieldTest.sources, ← hop, holder, ht, hu]
    refine ⟨rfl, .single ?_⟩
    intro hsource
    obtain ⟨hvalue, rfl⟩ := Source.days.inj hsource
    obtain rfl := Value.integer.inj hvalue
    rw [Option.some.inj (hstop.symm.trans hstop')]
  · obtain ⟨text, rfl, hc⟩ := singleTest_isPattern hpattern h
    obtain ⟨text', rfl, hc'⟩ := singleTest_isPattern (hop ▸ hpattern) h'
    rw [sources_single (.inl hpattern) ht, sources_single (.inl (hop ▸ hpattern)) hu]
    exact patternTest_alike hop hc hc'
  · rw [singleTest_comparison hcomparison] at h
    rw [singleTest_comparison (hop ▸ hcomparison)] at h'
    obtain ⟨p, hp, rfl⟩ := map_eq_ok.1 h
    obtain ⟨p', hp', rfl⟩ := map_eq_ok.1 h'
    rw [sources_single (.inr ⟨_, hcomparison⟩) ht,
      sources_single (.inr ⟨_, hop ▸ hcomparison⟩) hu]
    refine ⟨rfl, .single ?_⟩
    intro hsource
    obtain rfl := Source.operand.inj hsource
    rw [parameter_eq_ok] at hp hp'
    exact Option.some.inj (hp.symm.trans hp')

theorem parameters_isIn (d : Dialect) (column : ColumnRef) (ps : List Parameter)
    (negated : Bool) : ((Condition.isIn column ps negated).fragment d).parameters = ps := by
  cases ps with
  | nil => rfl
  | cons p ps =>
    have hvalues : ∀ qs : List Parameter,
        (qs.map Fragment.ofValue).flatMap Fragment.parameters = qs := by
      intro qs
      induction qs with
      | nil => rfl
      | cons q qs ih => rw [List.map_cons, List.flatMap_cons, ih]; rfl
    simp only [Condition.fragment, inFragment, parameters_append, Fragment.parameters_ofText,
      Fragment.parameters_separated, hvalues, List.nil_append, List.append_nil]

theorem parameters_boundAlike {vs ws : List Value} {ps qs : List Parameter}
    (hlength : vs.length = ws.length) (hp : vs.map kind.coerce = ps.map some)
    (hq : ws.map kind.coerce = qs.map some) :
    BoundAlike (vs.map .operand) (ws.map .operand) ps qs := by
  induction vs generalizing ws ps qs with
  | nil =>
    obtain rfl := List.eq_nil_of_length_eq_zero hlength.symm
    obtain rfl : ps = [] := by simpa using hp.symm
    obtain rfl : qs = [] := by simpa using hq.symm
    exact .nil
  | cons v vs ih =>
    cases ws with
    | nil => cases hlength
    | cons w ws =>
      cases ps with
      | nil => cases hp
      | cons p ps =>
        cases qs with
        | nil => cases hq
        | cons q qs =>
          obtain ⟨hpv, hps⟩ := List.cons.inj hp
          obtain ⟨hqw, hqs⟩ := List.cons.inj hq
          refine .cons ?_ (ih (Nat.succ.inj hlength) hps hqs)
          intro hsource
          obtain rfl := Source.operand.inj hsource
          exact Option.some.inj (hpv.symm.trans hqw)

theorem listTest_alike {vs ws : List Value} (hop : t.op = u.op) (ht : t.operand = .list vs)
    (hu : u.operand = .list ws) (hlength : vs.length = ws.length)
    (h : listTest t kind column vs = .ok c) (h' : listTest u kind column ws = .ok c') :
    c.Alike d (t.sources now) (u.sources now') c' := by
  rw [listTest] at h
  rw [listTest, ← hop] at h'
  split at h
  · rename_i hlist
    rw [if_pos hlist] at h'
    obtain ⟨ps, hps, h⟩ := bind_eq_ok.1 h
    obtain ⟨qs, hqs, h'⟩ := bind_eq_ok.1 h'
    have hbound : BoundAlike (vs.map .operand) (ws.map .operand) ps qs :=
      parameters_boundAlike hlength (parameters_eq_ok.1 hps) (parameters_eq_ok.1 hqs)
    have hsources : t.sources now = vs.map .operand ∧ u.sources now' = ws.map .operand := by
      simp only [FieldTest.sources, ht, hu, ← hop]
      rcases (by simpa using hlist : t.op = .isIn ∨ t.op = .notIn) with heq | heq <;>
        simp only [heq, and_self]
    rw [hsources.1, hsources.2]
    obtain ⟨hp, hq, hlengths⟩ := hbound.lengths
    have hsame : ps.length = qs.length := hp.trans (hlengths.trans hq.symm)
    cases ps with
    | nil =>
      obtain rfl : qs = [] := List.eq_nil_of_length_eq_zero hsame.symm
      obtain rfl := Except.ok.inj h
      obtain rfl := Except.ok.inj h'
      refine ⟨rfl, ?_⟩
      split <;> exact hbound
    | cons p ps =>
      cases qs with
      | nil => cases hsame
      | cons q qs =>
        obtain rfl := Except.ok.inj h
        obtain rfl := Except.ok.inj h'
        refine ⟨?_, ?_⟩
        · simp only [Condition.blank, List.map_const', hsame]
        · rw [parameters_isIn, parameters_isIn]
          exact hbound
  · cases h

theorem Operand.skeleton_cases {op : Operator} {a b : Operand}
    (h : a.skeleton op = b.skeleton op) :
    (a = .nothing ∧ b = .nothing) ∨
      (∃ v w, a = .single v ∧ b = .single w ∧ v.skeleton op = w.skeleton op) ∨
      (∃ v w v' w', a = .pair v w ∧ b = .pair v' w') ∨
      ∃ vs ws, a = .list vs ∧ b = .list ws ∧ vs.length = ws.length := by
  cases a <;> cases b <;> simp_all [Operand.skeleton]

theorem operandTest_alike (hop : t.op = u.op)
    (hskeleton : t.operand.skeleton t.op = u.operand.skeleton u.op)
    (h : operandTest now t kind column = .ok c) (h' : operandTest now' u kind column = .ok c') :
    c.Alike d (t.sources now) (u.sources now') c' := by
  rw [← hop] at hskeleton
  rcases Operand.skeleton_cases hskeleton with ⟨ht, hu⟩ | ⟨v, w, ht, hu, hvalue⟩ |
    ⟨v, w, v', w', ht, hu⟩ | ⟨vs, ws, ht, hu, hlength⟩
  · simp only [operandTest, ht] at h
    simp only [operandTest, hu, ← hop] at h'
    split at h
    · rename_i hrelative
      rw [if_pos hrelative] at h'
      obtain ⟨start, stop, hwindow, rfl⟩ := ofOperator_eq_ok h
      obtain ⟨start', stop', hwindow', rfl⟩ := ofOperator_eq_ok h'
      rw [sources_nothing hwindow ht, sources_nothing (hop ▸ hwindow') hu]
      have hboth : now = now' → start = start' ∧ stop = stop' := by
        rintro rfl
        simpa using hwindow.symm.trans hwindow'
      refine window_alike (fun hsource => ?_) fun hsource => ?_
      · exact (hboth (Source.clock.inj hsource)).1
      · exact (hboth (Source.clock.inj hsource)).2
    · cases h
  · simp only [operandTest, ht] at h
    simp only [operandTest, hu] at h'
    exact singleTest_alike hop ht hu hvalue h h'
  · simp only [operandTest, ht] at h
    simp only [operandTest, hu, ← hop] at h'
    split at h
    · rename_i hbetween
      rw [if_pos hbetween] at h'
      simp only [bind_eq_ok, parameter_eq_ok] at h h'
      obtain ⟨lo, hlo, hi, hhi, h⟩ := h
      obtain ⟨lo', hlo', hi', hhi', h'⟩ := h'
      obtain rfl := Except.ok.inj h
      obtain rfl := Except.ok.inj h'
      have hsources : t.sources now = [.operand v, .operand w] ∧
          u.sources now' = [.operand v', .operand w'] := by
        simp only [FieldTest.sources, ht, hu, ← hop, hbetween, and_self]
      rw [hsources.1, hsources.2]
      refine ⟨rfl, .cons (fun hsource => ?_) (.single fun hsource => ?_)⟩
      · obtain rfl := Source.operand.inj hsource
        exact Option.some.inj (hlo.symm.trans hlo')
      · obtain rfl := Source.operand.inj hsource
        exact Option.some.inj (hhi.symm.trans hhi')
    · cases h
  · simp only [operandTest, ht] at h
    simp only [operandTest, hu] at h'
    exact listTest_alike hop ht hu hlength h h'

theorem fieldTest_alike (hskeleton : t.skeleton = u.skeleton)
    (h : fieldTest registry now t place = .ok c) (h' : fieldTest registry now' u place = .ok c') :
    c.Alike d (t.sources now) (u.sources now') c' := by
  obtain ⟨hfield, hop, hoperand⟩ := FieldTest.mk.inj hskeleton
  obtain ⟨e, field, he, hfound, -, hc⟩ := fieldTest_eq_ok.1 h
  obtain ⟨e', field', he', hfound', -, hc'⟩ := fieldTest_eq_ok.1 h'
  obtain rfl : e = e' := Option.some.inj (he.symm.trans he')
  obtain rfl : field = field' := Option.some.inj (hfound.symm.trans (hfield ▸ hfound'))
  exact operandTest_alike hop hoperand hc hc'

end Tests

/-! ## Pieces of SQL -/

/-- A piece of SQL with as many values as markers uses every value once, in order. -/
theorem parameters_rawFragment {cs : List Char} {values : List Parameter}
    (hcount : cs.count '?' = values.length) : (rawFragment cs values).parameters = values := by
  fun_induction rawFragment cs values with
  | case1 values =>
    obtain rfl := List.eq_nil_of_length_eq_zero hcount.symm
    rfl
  | case2 cs v vs ih =>
    rw [List.count_cons_self, List.length_cons] at hcount
    rw [Fragment.parameters, ih (Nat.succ.inj hcount)]
  | case3 c cs vs hmarker ih =>
    have hc : c ≠ '?' := by
      rintro rfl
      cases vs with
      | nil => simp at hcount
      | cons v vs => exact hmarker v vs rfl rfl
    rw [List.count_cons_of_ne hc] at hcount
    exact ih hcount

theorem given_boundAlike {vs ws : List Parameter} (hlength : vs.length = ws.length) :
    BoundAlike (vs.map .given) (ws.map .given) vs ws := by
  induction vs generalizing ws with
  | nil =>
    obtain rfl := List.eq_nil_of_length_eq_zero hlength.symm
    exact .nil
  | cons v vs ih =>
    cases ws with
    | nil => cases hlength
    | cons w ws => exact .cons Source.given.inj (ih (Nat.succ.inj hlength))

theorem rawTest_alike {sql : String} {vs ws : List Parameter} (hlength : vs.length = ws.length)
    (h : rawTest sql vs place = .ok c) (h' : rawTest sql ws place = .ok c') :
    c.Alike d (vs.map .given) (ws.map .given) c' := by
  simp only [rawTest] at h h'
  split at h
  · rename_i hcount
    obtain rfl := Except.ok.inj h
    rw [if_pos (hcount.trans hlength)] at h'
    obtain rfl := Except.ok.inj h'
    have hvalues : ∀ values : List Parameter, vs.length = values.length →
        (Condition.fragment d (.raw (String.ofList
          (replaceWord aliasWord place.aliasName.toList 0 sql.toList)) values)).parameters =
          values := by
      intro values hlength
      simp only [Condition.fragment, parameters_append, Fragment.parameters_ofText,
        List.nil_append, List.append_nil]
      exact parameters_rawFragment (hcount.trans hlength)
    refine ⟨?_, ?_⟩
    · simp only [Condition.blank, List.map_const', hlength]
    · rw [hvalues vs rfl, hvalues ws hlength]
      exact given_boundAlike hlength
  · cases h

/-! ## Filters -/

/-- A filter and any other of its skeleton, resolved at one place, become conditions that are
alike. -/
def ResolvesAlike (registry : Registry) (plan : JoinPlan) (now now' : Instant) (d : Dialect)
    (f : Filter) : Prop :=
  ∀ g place c c', f.skeleton = g.skeleton → filter registry plan now f place = .ok c →
    filter registry plan now' g place = .ok c' →
    c.Alike d (f.sources now) (g.sources now') c'

theorem filters_alike {fs gs : List Filter} {cs cs' : List Condition}
    (ih : ∀ f ∈ fs, ResolvesAlike registry plan now now' d f)
    (hskeleton : fs.map Filter.skeleton = gs.map Filter.skeleton)
    (h : Forall₂ (fun f c => filter registry plan now f place = .ok c) fs cs)
    (h' : Forall₂ (fun f c => filter registry plan now' f place = .ok c) gs cs') :
    Condition.AllAlike d (fs.flatMap (Filter.sources now)) (gs.flatMap (Filter.sources now'))
      cs cs' :=
  Condition.allAlike_of_forall₂ h h' hskeleton
    fun f hf g c c' hfg hc hc' => ih f hf g place c c' hfg hc hc'

theorem nestedFilters_alike {fs gs : List (String × Filter)} {cs cs' : List Condition}
    (ih : ∀ name f, (name, f) ∈ fs → ResolvesAlike registry plan now now' d f)
    (hskeleton : fs.map (fun p => (p.1, p.2.skeleton)) = gs.map fun p => (p.1, p.2.skeleton))
    (h : Forall₂ (fun p c => ∃ j inside inner, child plan p.1 place = .ok (j, inside) ∧
      filter registry plan now p.2 inside = .ok inner ∧ nestedCondition plan j inner = c) fs cs)
    (h' : Forall₂ (fun p c => ∃ j inside inner, child plan p.1 place = .ok (j, inside) ∧
      filter registry plan now' p.2 inside = .ok inner ∧ nestedCondition plan j inner = c)
      gs cs') :
    Condition.AllAlike d (fs.flatMap fun p => p.2.sources now)
      (gs.flatMap fun p => p.2.sources now') cs cs' := by
  refine Condition.allAlike_of_forall₂ h h' hskeleton ?_
  rintro ⟨name, f⟩ hf ⟨name', g⟩ c c' hfg ⟨j, inside, inner, hchild, hinner, rfl⟩
    ⟨j', inside', inner', hchild', hinner', rfl⟩
  obtain ⟨rfl, hskel⟩ := Prod.mk.inj hfg
  obtain ⟨rfl, rfl⟩ := Prod.mk.inj (Except.ok.inj (hchild.symm.trans hchild'))
  exact nestedCondition_alike (ih name f hf g inside inner inner' hskel hinner hinner') plan j

theorem entityFilter_alike {ef : EntityFilter}
    (ihn : ∀ name f, (name, f) ∈ ef.nested → ResolvesAlike registry plan now now' d f)
    (ihr : ∀ t ∈ ef.related, ResolvesAlike registry plan now now' d (.related t))
    (iha : ∀ f ∈ ef.all, ResolvesAlike registry plan now now' d f)
    (iho : ∀ f ∈ ef.any, ResolvesAlike registry plan now now' d f)
    (ihneg : ∀ f, ef.negated = some f → ResolvesAlike registry plan now now' d f) :
    ResolvesAlike registry plan now now' d (.entity ef) := by
  intro g place c c' hskeleton h h'
  obtain ⟨eg, rfl, hparts⟩ := Filter.entity_of_skeleton hskeleton
  obtain ⟨code, tests, nested, related, all, any, negated⟩ := ef
  obtain ⟨code', tests', nested', related', all', any', negated'⟩ := eg
  simp only [EntityFilter.skeleton, EntityFilter.mk.injEq, Filter.nestedSkeletons_eq_map,
    RelatedTest.skeletons_eq_map, Filter.skeletons_eq_map,
    Filter.optionalSkeleton_eq_map] at hparts
  obtain ⟨-, hfields, hnested, hrelated, hall, hany, hnegated⟩ := hparts
  obtain ⟨-, ts, ns, rs, as, os, gs, h₁, h₂, h₃, h₄, h₅, h₆, rfl⟩ := entityFilter_eq_ok.1 h
  obtain ⟨-, ts', ns', rs', as', os', gs', h₁', h₂', h₃', h₄', h₅', h₆', rfl⟩ :=
    entityFilter_eq_ok.1 h'
  simp only [Filter.sources, EntityFilter.sources, Filter.sourcesOfAll_eq_flatMap,
    Filter.sourcesOfNested_eq_flatMap, RelatedTest.sourcesOfAll_eq_flatMap,
    Filter.sourcesOfOptional_eq_flatMap, entityParts]
  have a₁ := Condition.allAlike_of_forall₂ h₁ h₁' hfields
    fun t _ u c c' htu hc hc' => fieldTest_alike (d := d) htu hc hc'
  have a₂ := nestedFilters_alike ihn hnested h₂ h₂'
  have a₃ : Condition.AllAlike d (related.flatMap fun t => (Filter.related t).sources now)
      (related'.flatMap fun t => (Filter.related t).sources now') rs rs' := by
    refine Condition.allAlike_of_forall₂ h₃ h₃' hrelated fun t ht u c c' htu hc hc' => ?_
    exact ihr t ht (.related u) place c c' (by simp only [Filter.skeleton, htu]) hc hc'
  have a₄ := filters_alike iha hall h₄ h₄'
  have a₅ := filters_alike iho hany h₅ h₅'
  have a₆ : Condition.AllAlike d (negated.toList.flatMap (Filter.sources now))
      (negated'.toList.flatMap (Filter.sources now')) gs gs' := by
    refine filters_alike (fun f hf => ihneg f (Option.mem_toList.1 hf)) ?_ h₆ h₆'
    cases negated <;> cases negated' <;> simp_all
  exact (((((a₁.append a₂).append a₃).append a₄).append a₅.anyOf_or_nil).append
    a₆.map_not).allOf

/-- Filters of one skeleton, each at its own time, become conditions that are alike. -/
theorem filter_alike (f : Filter) : ResolvesAlike registry plan now now' d f := by
  induction f using Filter.induct with
  | field t =>
    intro g place c c' hskeleton h h'
    obtain ⟨u, rfl, hsame⟩ := Filter.field_of_skeleton hskeleton
    exact fieldTest_alike hsame h h'
  | all fs ih =>
    intro g place c c' hskeleton h h'
    obtain ⟨gs, rfl, hsame⟩ := Filter.all_of_skeleton hskeleton
    obtain ⟨cs, hcs, h⟩ := bind_eq_ok.1 h
    obtain rfl := Except.ok.inj h
    obtain ⟨cs', hcs', h'⟩ := bind_eq_ok.1 h'
    obtain rfl := Except.ok.inj h'
    simp only [Filter.sources, Filter.sourcesOfAll_eq_flatMap]
    exact (filters_alike ih hsame (filters_eq_ok.1 hcs) (filters_eq_ok.1 hcs')).allOf
  | any fs ih =>
    intro g place c c' hskeleton h h'
    obtain ⟨gs, rfl, hsame⟩ := Filter.any_of_skeleton hskeleton
    obtain ⟨cs, hcs, h⟩ := bind_eq_ok.1 h
    obtain rfl := Except.ok.inj h
    obtain ⟨cs', hcs', h'⟩ := bind_eq_ok.1 h'
    obtain rfl := Except.ok.inj h'
    simp only [Filter.sources, Filter.sourcesOfAll_eq_flatMap]
    exact (filters_alike ih hsame (filters_eq_ok.1 hcs) (filters_eq_ok.1 hcs')).anyOf
  | not f ih =>
    intro g place c c' hskeleton h h'
    obtain ⟨f', rfl, hsame⟩ := Filter.not_of_skeleton hskeleton
    obtain ⟨inner, hinner, h⟩ := bind_eq_ok.1 h
    obtain rfl := Except.ok.inj h
    obtain ⟨inner', hinner', h'⟩ := bind_eq_ok.1 h'
    obtain rfl := Except.ok.inj h'
    exact (ih f' place inner inner' hsame hinner hinner').not
  | entity ef ihn ihr iha iho ihneg => exact entityFilter_alike ihn ihr iha iho ihneg
  | quantified name q f ih =>
    intro g place c c' hskeleton h h'
    obtain ⟨f', rfl, hsame⟩ := Filter.quantified_of_skeleton hskeleton
    obtain ⟨⟨j, inside⟩, hcollection, h⟩ := bind_eq_ok.1 h
    obtain ⟨inner, hinner, h⟩ := bind_eq_ok.1 h
    obtain rfl := Except.ok.inj h
    obtain ⟨⟨j', inside'⟩, hcollection', h'⟩ := bind_eq_ok.1 h'
    obtain ⟨inner', hinner', h'⟩ := bind_eq_ok.1 h'
    obtain rfl := Except.ok.inj h'
    obtain ⟨rfl, rfl⟩ := Prod.mk.inj (Except.ok.inj (hcollection.symm.trans hcollection'))
    exact quantified_alike (ih f' inside inner inner' hsame hinner hinner') plan j q
  | size name op n =>
    intro g place c c' hskeleton h h'
    obtain ⟨n', rfl⟩ := Filter.size_of_skeleton hskeleton
    obtain ⟨⟨j, inside⟩, hcollection, h⟩ := bind_eq_ok.1 h
    obtain ⟨-, rfl⟩ := sized_eq_ok.1 h
    obtain ⟨⟨j', inside'⟩, hcollection', h'⟩ := bind_eq_ok.1 h'
    obtain ⟨-, rfl⟩ := sized_eq_ok.1 h'
    obtain ⟨rfl, rfl⟩ := Prod.mk.inj (Except.ok.inj (hcollection.symm.trans hcollection'))
    exact rowCount_alike d plan j (sizeComparison op) n n'
  | raw sql values =>
    intro g place c c' hskeleton h h'
    obtain ⟨values', rfl, hlength⟩ := Filter.raw_of_skeleton hskeleton
    simp only [Filter.sources]
    exact rawTest_alike hlength h h'

end Resolution

end FilterQuery
