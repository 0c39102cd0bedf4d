import FilterQuery.LikePattern
import FilterQuery.Proofs.Statement.Rendering

/-!
# Markers in conditions

A condition is clean when the names in it hold no character that begins a marker; what is asked of
its pieces of SQL is left open. The fragments of clean conditions are tidy, and so the markers of a
condition line up with its values (`Condition.Clean.rendersWith`): one pass over the condition
collects the values in the order of the markers, and each marker stands where its value is used.

A piece of SQL may have a digit right after a marker, which a database reads as part of the marker.
So the markers refer to the values when no piece has one (`Condition.Clean.refersTo`), and in
Postgres only then (`Condition.Clean.refersTo_iff`).
-/

namespace FilterQuery

/-! ## Clean conditions -/

/-- A column whose alias and name hold no beginning of a marker. -/
def ColumnRef.Clean (c : ColumnRef) : Prop :=
  Unmarked c.aliasName ∧ Unmarked c.column

mutual

/-- A condition with clean names, whose pieces of SQL have a property. -/
def Condition.Clean (piece : String → List Parameter → Prop) : Condition → Prop
  | .always => True
  | .never => True
  | .compare column _ _ => column.Clean
  | .sameColumns left right => left.Clean ∧ right.Clean
  | .between column _ _ => column.Clean
  | .like column _ _ _ _ => column.Clean
  | .isIn column _ _ => column.Clean
  | .isNull column _ => column.Clean
  | .all items => Condition.AllClean piece items
  | .any items => Condition.AllClean piece items
  | .not item => Condition.Clean piece item
  | .notTrue item => Condition.Clean piece item
  | .hasRow subquery _ => Subquery.Clean piece subquery
  | .rowCount subquery _ _ => Subquery.Clean piece subquery
  | .raw sql values => piece sql values

/-- Conditions each of which is clean. -/
def Condition.AllClean (piece : String → List Parameter → Prop) : List Condition → Prop
  | [] => True
  | c :: cs => Condition.Clean piece c ∧ Condition.AllClean piece cs

/-- A subquery with clean names. -/
def Subquery.Clean (piece : String → List Parameter → Prop) : Subquery → Prop
  | ⟨table, aliasName, joins, correlation, filter⟩ =>
    Unmarked table ∧ Unmarked aliasName ∧ Join.AllClean piece joins ∧
      Condition.Clean piece correlation ∧ Condition.Clean piece filter

/-- Joins with clean names. -/
def Join.AllClean (piece : String → List Parameter → Prop) : List Join → Prop
  | [] => True
  | ⟨table, aliasName, on⟩ :: js =>
    Unmarked table ∧ Unmarked aliasName ∧ Condition.Clean piece on ∧ Join.AllClean piece js

end

/-- A piece of SQL without numbered markers, that has as many markers as values. -/
def MarkersMatch (sql : String) (values : List Parameter) : Prop :=
  '$' ∉ sql.toList ∧ LikePattern.countMarkers sql = values.length

/-- No marker in a text has a digit right after it. -/
def MarkersEnd : List Char → Prop
  | [] => True
  | c :: cs =>
    (c = '?' → cs.head?.all (fun c => !c.isDigit) = true) ∧ MarkersEnd cs

instance decidableMarkersEnd : ∀ cs, Decidable (MarkersEnd cs)
  | [] => .isTrue trivial
  | _ :: cs =>
    have := decidableMarkersEnd cs
    inferInstanceAs (Decidable (_ ∧ _))

theorem markersEnd_cons_of_ne {c : Char} {cs : List Char} (h : c ≠ '?') :
    MarkersEnd (c :: cs) ↔ MarkersEnd cs := by
  rw [MarkersEnd, and_iff_right fun hc => absurd hc h]

theorem markersEnd_append {cs rest : List Char} (h : '?' ∉ cs) :
    MarkersEnd (cs ++ rest) ↔ MarkersEnd rest := by
  induction cs with
  | nil => rfl
  | cons c cs ih =>
    rw [List.mem_cons, not_or] at h
    rw [List.cons_append, markersEnd_cons_of_ne (Ne.symm h.1), ih h.2]

/-- A piece of SQL in which no marker has a digit right after it. -/
def MarkersStand (sql : String) (_ : List Parameter) : Prop :=
  MarkersEnd sql.toList

/-! ## Tidy fragments -/

section Tidy

open Fragment

variable {strict : Prop} {d : Dialect}

theorem ColumnRef.Clean.text {c : ColumnRef} (h : c.Clean) : Unmarked c.text :=
  (h.1.append (by decide)).append h.2

theorem unmarked_symbol (op : Comparison) : Unmarked op.symbol := by
  cases op <;> decide

theorem unmarked_negation (negated : Bool) : Unmarked (Dialect.negation negated) := by
  cases negated <;> decide

theorem unmarked_likeAround {column : String} (h : Unmarked column) (d : Dialect)
    (ignoreCase negated : Bool) :
    Unmarked (d.likeAround column ignoreCase negated).1 ∧
      Unmarked (d.likeAround column ignoreCase negated).2 ∧
      EndsNumber (d.likeAround column ignoreCase negated).2 := by
  have hlike : Unmarked (column ++ " " ++ Dialect.negation negated ++ "LIKE ") :=
    ((h.append (by decide)).append (unmarked_negation negated)).append (by decide)
  cases ignoreCase with
  | false => cases d <;> exact ⟨hlike, unmarked_empty, endsNumber_empty⟩
  | true =>
    cases d with
    | sqlite =>
      have hlower : Unmarked ("LOWER(" ++ column) := Unmarked.append (by decide) h
      have hclose : Unmarked ")" ∧ EndsNumber ")" := by decide
      refine ⟨?_, hclose⟩
      exact ((hlower.append (by decide)).append (unmarked_negation negated)).append (by decide)
    | postgres =>
      refine ⟨?_, unmarked_empty, endsNumber_empty⟩
      exact ((h.append (by decide)).append (unmarked_negation negated)).append (by decide)

theorem tidy_separated_iff {separator : String} (hs : Unmarked separator)
    (hends : EndsNumber separator) (hne : separator ≠ "") (fs : List Fragment) :
    Tidy strict (separated separator fs) ↔ ∀ f ∈ fs, Tidy strict f := by
  match fs with
  | [] => exact iff_of_true tidy_nil (by simp)
  | [f] => exact List.forall_mem_singleton.symm
  | f :: g :: fs =>
    have hrest : Tidy strict (separated separator (g :: fs)) ↔ ∀ k ∈ g :: fs, Tidy strict k :=
      tidy_separated_iff hs hends hne (g :: fs)
    have hlead : EndsNumber (lead (.text separator :: separated separator (g :: fs))) :=
      hends.append hne _
    rw [separated, tidy_append_iff hlead, Tidy, and_iff_right hs, List.forall_mem_cons, hrest]
    · simp

theorem tidy_grouped_iff {separator identity : String} (hs : Unmarked separator)
    (hends : EndsNumber separator) (hne : separator ≠ "") (hidentity : Unmarked identity)
    (fs : List Fragment) :
    Tidy strict (grouped separator identity fs) ↔ ∀ f ∈ fs, Tidy strict f := by
  match fs with
  | [] => exact iff_of_true (tidy_ofText hidentity) (by simp)
  | [f] => exact List.forall_mem_singleton.symm
  | f :: g :: fs =>
    have hgrouped : grouped separator identity (f :: g :: fs) =
        ofText "(" ++ (separated separator (f :: g :: fs) ++ ofText ")") := by
      rw [grouped]
      · rfl
      · simp
      · simp
    rw [hgrouped, tidy_text_append_iff (by decide), tidy_append_text_iff (by decide) (by decide),
      tidy_separated_iff hs hends hne]

theorem endsNumber_rawFragment {cs : List Char} {values : List Parameter} :
    EndsNumber (lead (rawFragment cs values)) ↔
      cs.head?.all (fun c => !c.isDigit) = true := by
  fun_cases rawFragment cs values with
  | case1 => exact iff_of_true endsNumber_empty rfl
  | case2 cs v vs => exact iff_of_true endsNumber_empty rfl
  | case3 c cs vs _ => simp [lead, EndsNumber]

/-- A piece of SQL is strictly tidy exactly when no marker in it has a digit right after it. -/
theorem tidy_rawFragment_iff {cs : List Char} {values : List Parameter} (hdollar : '$' ∉ cs)
    (hcount : cs.count '?' = values.length) :
    Tidy strict (rawFragment cs values) ↔ (strict → MarkersEnd cs) := by
  fun_induction rawFragment cs values with
  | case1 => exact iff_of_true tidy_nil fun _ => trivial
  | case2 cs v vs ih =>
    rw [List.mem_cons, not_or] at hdollar
    rw [List.count_cons_self, List.length_cons] at hcount
    rw [Tidy, ih hdollar.2 (Nat.succ.inj hcount), endsNumber_rawFragment, MarkersEnd, ← imp_and]
    simp only [forall_const]
  | case3 c cs vs hmarker ih =>
    rw [List.mem_cons, not_or] at hdollar
    -- a marker would have a value left for it, since there are as many of both
    have hc : c ≠ '?' := by
      rintro rfl
      cases vs with
      | nil => simp at hcount
      | cons v vs => exact hmarker v vs rfl rfl
    have hunmarked : Unmarked (String.singleton c) := by
      simpa [Unmarked] using ⟨hc.symm, hdollar.1⟩
    rw [List.count_cons_of_ne hc] at hcount
    rw [Tidy, ih hdollar.2 hcount, and_iff_right hunmarked, markersEnd_cons_of_ne hc]

theorem tidy_escapeClause (escaped : Bool) : Tidy strict (escapeClause escaped) := by
  cases escaped with
  | false => exact tidy_nil
  | true => exact tidy_ofText (by decide)

theorem endsNumber_escapeClause (escaped : Bool) : EndsNumber (lead (escapeClause escaped)) := by
  cases escaped <;> decide

theorem tidy_inFragment {column : ColumnRef} (h : column.Clean) (values : List Parameter)
    (negated : Bool) : Tidy strict (inFragment column values negated) := by
  cases values with
  | nil => cases negated <;> exact tidy_ofText (by decide)
  | cons v vs =>
    have hopen : Unmarked (column.text ++ " " ++ Dialect.negation negated ++ "IN (") :=
      ((h.text.append (by decide)).append (unmarked_negation negated)).append (by decide)
    have hvalues : Tidy strict (separated ", " ((v :: vs).map ofValue)) := by
      refine (tidy_separated_iff (by decide) (by decide) (by decide) _).2 ?_
      exact List.forall_mem_map.2 fun w _ => tidy_ofValue w
    exact (tidy_append_text_iff (by decide) (by decide)).2 ((tidy_text_append_iff hopen).2 hvalues)

theorem endsNumber_joins (js : List Join) : EndsNumber (lead (Join.fragments d js)) := by
  cases js with
  | nil => exact endsNumber_empty
  | cons j js =>
    obtain ⟨table, aliasName, on⟩ := j
    simp only [Join.fragments, ofText, List.cons_append, lead, String.append_assoc]
    exact EndsNumber.append (by decide) (by decide) _

theorem Condition.eq_always {c : Condition} (h : c.isAlways = true) : c = .always := by
  cases c with
  | always => rfl
  | _ => cases h

mutual

/-- The fragment of a clean condition is tidy, and strictly so exactly when no marker in its pieces
of SQL has a digit right after it. -/
theorem Condition.Clean.tidy_iff : ∀ {c : Condition}, c.Clean MarkersMatch →
    (Tidy strict (c.fragment d) ↔ (strict → c.Clean MarkersStand))
  | .always, _ => iff_of_true (tidy_ofText (by decide)) fun _ => trivial
  | .never, _ => iff_of_true (tidy_ofText (by decide)) fun _ => trivial
  | .compare column op value, h => by
    refine iff_of_true ((tidy_append_value_iff value).2 (tidy_ofText ?_)) fun _ => h
    exact ((ColumnRef.Clean.text h).append (by decide)).append (unmarked_symbol op) |>.append
      (by decide)
  | .sameColumns left right, h =>
    iff_of_true (tidy_ofText ((h.1.text.append (by decide)).append h.2.text)) fun _ => h
  | .between column low high, h => by
    refine iff_of_true ((tidy_append_value_iff high).2 ?_) fun _ => h
    refine (tidy_append_text_iff (by decide) (by decide)).2 ((tidy_append_value_iff low).2 ?_)
    exact tidy_ofText ((ColumnRef.Clean.text h).append (by decide))
  | .like column pattern ignoreCase escaped negated, h => by
    obtain ⟨hbefore, hafter, hends⟩ :=
      unmarked_likeAround (ColumnRef.Clean.text h) d ignoreCase negated
    refine iff_of_true ((tidy_append_iff (endsNumber_escapeClause escaped)).2
      ⟨?_, tidy_escapeClause escaped⟩) fun _ => h
    exact (tidy_append_text_iff hafter hends).2 ((tidy_append_value_iff _).2 (tidy_ofText hbefore))
  | .isIn column values negated, h =>
    iff_of_true (tidy_inFragment h values negated) fun _ => h
  | .isNull column negated, h => by
    refine iff_of_true (tidy_ofText ?_) fun _ => h
    exact ((ColumnRef.Clean.text h).append (by decide)).append (unmarked_negation negated) |>.append
      (by decide)
  | .all items, h => by
    rw [Condition.fragment, tidy_grouped_iff (by decide) (by decide) (by decide) (by decide)]
    exact Condition.AllClean.tidy_iff h
  | .any items, h => by
    rw [Condition.fragment, tidy_grouped_iff (by decide) (by decide) (by decide) (by decide)]
    exact Condition.AllClean.tidy_iff h
  | .not item, h => by
    rw [Condition.fragment, tidy_append_text_iff (by decide) (by decide),
      tidy_text_append_iff (by decide)]
    exact Condition.Clean.tidy_iff (c := item) h
  | .notTrue item, h => by
    rw [Condition.fragment, tidy_append_text_iff (by decide) (by decide),
      tidy_text_append_iff (by decide)]
    exact Condition.Clean.tidy_iff (c := item) h
  | .hasRow subquery negated, h => by
    have hopen : Unmarked (Dialect.negation negated ++ "EXISTS (") :=
      (unmarked_negation negated).append (by decide)
    rw [Condition.fragment, tidy_append_text_iff (by decide) (by decide),
      tidy_text_append_iff hopen]
    exact Subquery.Clean.tidy_iff (by decide) h
  | .rowCount subquery op count, h => by
    have hsymbol : Unmarked (") " ++ op.symbol ++ " ") :=
      (Unmarked.append (by decide) (unmarked_symbol op)).append (by decide)
    have hends : EndsNumber (") " ++ op.symbol ++ " ") := by
      rw [String.append_assoc]
      exact EndsNumber.append (by decide) (by decide) _
    rw [Condition.fragment, tidy_append_value_iff, tidy_append_text_iff hsymbol hends,
      tidy_text_append_iff (by decide)]
    exact Subquery.Clean.tidy_iff (by decide) h
  | .raw sql values, h => by
    rw [Condition.fragment, tidy_append_text_iff (by decide) (by decide),
      tidy_text_append_iff (by decide)]
    exact tidy_rawFragment_iff h.1 h.2

theorem Condition.AllClean.tidy_iff : ∀ {cs : List Condition}, Condition.AllClean MarkersMatch cs →
    ((∀ f ∈ Condition.fragments d cs, Tidy strict f) ↔
      (strict → Condition.AllClean MarkersStand cs))
  | [], _ => iff_of_true (by simp [Condition.fragments]) fun _ => trivial
  | c :: cs, h => by
    rw [Condition.fragments, List.forall_mem_cons, Condition.Clean.tidy_iff h.1,
      Condition.AllClean.tidy_iff h.2, ← imp_and]
    rfl

theorem Subquery.Clean.tidy_iff {selected : String} (hselected : Unmarked selected) :
    ∀ {q : Subquery}, q.Clean MarkersMatch →
      (Tidy strict (q.fragment d selected) ↔ (strict → q.Clean MarkersStand))
  | ⟨table, aliasName, joins, correlation, filter⟩,
      ⟨htable, halias, hjoins, hrelated, hfilter⟩ => by
    have htext : Unmarked ("SELECT " ++ selected ++ " FROM " ++ table ++ " " ++ aliasName) :=
      ((((Unmarked.append (by decide) hselected).append (by decide)).append htable).append
        (by decide)).append halias
    have hrest : Tidy strict (if filter.isAlways then [] else ofText " AND " ++ filter.fragment d) ↔
        (strict → filter.Clean MarkersStand) := by
      split
      · rename_i halways
        rw [Condition.eq_always halways]
        exact iff_of_true tidy_nil fun _ => trivial
      · rw [tidy_text_append_iff (by decide)]
        exact Condition.Clean.tidy_iff hfilter
    have hlast : EndsNumber
        (lead (if filter.isAlways then [] else ofText " AND " ++ filter.fragment d)) := by
      split
      · exact endsNumber_empty
      · exact EndsNumber.append (by decide) (by decide) _
    have hwhere : EndsNumber (lead (ofText " WHERE " ++ correlation.fragment d)) :=
      EndsNumber.append (by decide) (by decide) _
    rw [Subquery.fragment, tidy_append_iff hlast, List.append_assoc _ (ofText " WHERE "),
      tidy_append_iff hwhere, tidy_text_append_iff htext, tidy_text_append_iff (by decide),
      Join.AllClean.tidy_iff hjoins, Condition.Clean.tidy_iff hrelated, hrest, ← imp_and, ← imp_and]
    exact imp_congr_right fun _ =>
      ⟨fun h => ⟨htable, halias, h.1.1, h.1.2, h.2⟩, fun h => ⟨⟨h.2.2.1, h.2.2.2.1⟩, h.2.2.2.2⟩⟩

theorem Join.AllClean.tidy_iff : ∀ {js : List Join}, Join.AllClean MarkersMatch js →
    (Tidy strict (Join.fragments d js) ↔ (strict → Join.AllClean MarkersStand js))
  | [], _ => iff_of_true tidy_nil fun _ => trivial
  | ⟨table, aliasName, on⟩ :: js, ⟨htable, halias, hon, hjs⟩ => by
    have htext : Unmarked (" LEFT JOIN " ++ table ++ " " ++ aliasName ++ " ON ") :=
      (((Unmarked.append (by decide) htable).append (by decide)).append halias).append (by decide)
    rw [Join.fragments, tidy_append_iff (endsNumber_joins js), tidy_text_append_iff htext,
      Condition.Clean.tidy_iff hon, Join.AllClean.tidy_iff hjs, ← imp_and]
    exact imp_congr_right fun _ =>
      ⟨fun h => ⟨htable, halias, h.1, h.2⟩, fun h => ⟨h.2.2.1, h.2.2.2⟩⟩

end

end Tidy

/-! ## Rendered conditions -/

/-- A condition that is rendered after other values leaves these untouched and appends its own: the
markers of its SQL are numbered on in order, and each stands where its value is used. -/
structure Condition.RendersWith (c : Condition) (d : Dialect) (initial values : List Parameter) :
    Prop where
  collected : (c.renderM d d.bind).run initial =
    (Fragment.sql d initial.length (c.fragment d), initial ++ values)
  parameters : (c.fragment d).parameters = values
  lines : LinesUp d initial.length values (Fragment.sql d initial.length (c.fragment d))
    fun write => (c.renderM d fun v => (pure (write v) : Id String)).run

namespace Condition

/-- The values of a condition, which are the same in every dialect (`parameters_fragment`). -/
def values (c : Condition) : List Parameter :=
  (c.fragment .sqlite).parameters

variable {c : Condition}

theorem Clean.tidy (h : c.Clean MarkersMatch) (d : Dialect) : Fragment.Tidy False (c.fragment d) :=
  h.tidy_iff.2 False.elim

/-- The markers of a clean condition line up with its values, after any other values. -/
theorem Clean.rendersWith (h : c.Clean MarkersMatch) (d : Dialect) (initial : List Parameter) :
    c.RendersWith d initial c.values := by
  have hvalues : (c.fragment d).parameters = c.values := parameters_fragment d .sqlite c
  refine ⟨?_, hvalues, ?_⟩
  · rw [renderM_eq, Fragment.writtenM_bind, hvalues]
  · have hlines := (h.tidy d).linesUp d initial.length
    rw [hvalues] at hlines
    simp only [renderM_eq, Fragment.writtenM_pure]
    exact hlines

/-- When no piece of SQL has a digit right after a marker, the markers refer to the values. -/
theorem Clean.refersTo (h : c.Clean MarkersMatch) (hstand : c.Clean MarkersStand) (d : Dialect)
    (start : Nat) : RefersTo d start c.values (Fragment.sql d start (c.fragment d)) := by
  have htidy : Fragment.Tidy True (c.fragment d) := h.tidy_iff.2 fun _ => hstand
  rw [values, ← parameters_fragment d .sqlite c]
  exact htidy.refersTo d start

/-- In Postgres the markers refer to the values only if no piece has a digit right after one. -/
theorem Clean.refersTo_iff (h : c.Clean MarkersMatch) (start : Nat) :
    RefersTo .postgres start c.values (Fragment.sql .postgres start (c.fragment .postgres)) ↔
      c.Clean MarkersStand := by
  rw [values, ← parameters_fragment .postgres .sqlite c, (h.tidy .postgres).refersTo_iff,
    h.tidy_iff]
  exact true_imp_iff

end Condition

end FilterQuery
