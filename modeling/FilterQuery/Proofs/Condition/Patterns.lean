import Mathlib.Data.List.Infix
import FilterQuery.Proofs.Condition.Compiling
import FilterQuery.Proofs.Meaning.Database
import FilterQuery.Proofs.Schema.Catalog

/-!
# What patterns match

The matcher of `LIKE .. ESCAPE '\'`: `%` stands for any characters, `_` for any one character, and a
character after a backslash for itself. A pattern is read as a list of symbols first
(`LikePattern.symbols?`), which then match a text or not (`LikePattern.accepts`). A literal text
that is escaped is read as its characters, whatever may follow it in the pattern
(`LikePattern.symbols?_escape_append`). So the patterns of literal texts match the texts that hold
them, begin with them and end with them, and so do the conditions that tests for literal texts
become (`Resolution.literal_tests_exact`). Escaping takes one pass, in which it makes what replacing
the special characters one after another would make (`LikePattern.escape_eq_escapeInTurn`).
-/

namespace FilterQuery

namespace LikePattern

/-! ## Reading patterns -/

/-- What a place of a pattern stands for. -/
inductive Symbol where
  /-- Any characters, or none. -/
  | anything
  /-- Any one character. -/
  | anyOne
  /-- A character. -/
  | exactly (c : Char)
deriving DecidableEq, Repr

/-- What a character that is not escaped stands for. -/
def Symbol.ofChar (c : Char) : Symbol :=
  if c = '%' then .anything else if c = '_' then .anyOne else .exactly c

/-- Reads a pattern, from a place that may come right after an escape character. A pattern that ends
in an escape character cannot be read. -/
def symbolsFrom? : Bool → List Char → Option (List Symbol)
  | false, [] => some []
  | true, [] => none
  | true, c :: cs => (symbolsFrom? false cs).map (.exactly c :: ·)
  | false, c :: cs =>
    if c = escapeChar then symbolsFrom? true cs
    else (symbolsFrom? false cs).map (Symbol.ofChar c :: ·)

/-- The symbols of a pattern. -/
def symbols? (pattern : List Char) : Option (List Symbol) :=
  symbolsFrom? false pattern

/-- Whether, from a place of a pattern that may come right after an escape character, each escape
character stands before a special character. -/
def isWellFormedFrom : Bool → List Char → Bool
  | escaped, [] => !escaped
  | true, c :: cs => isSpecial c && isWellFormedFrom false cs
  | false, c :: cs => isWellFormedFrom (c == escapeChar) cs

/-- Whether each escape character of a pattern escapes a special character: none is left at the end,
and none stands before a character without a meaning of its own. -/
def isWellFormed (pattern : List Char) : Bool :=
  isWellFormedFrom false pattern

/-! ## Matching -/

/-- Whether symbols match the whole of a text. -/
def matchesAll : List Symbol → List Char → Bool
  | [], text => text.isEmpty
  | .anything :: symbols, text => text.tails.any (matchesAll symbols)
  | .anyOne :: _, [] => false
  | .anyOne :: symbols, _ :: rest => matchesAll symbols rest
  | .exactly _ :: _, [] => false
  | .exactly c :: symbols, d :: rest => c == d && matchesAll symbols rest

/-- Whether a pattern matches the whole of a text, with regard to case. -/
def accepts (pattern text : List Char) : Bool :=
  match symbols? pattern with
  | some symbols => matchesAll symbols text
  | none => false

variable {s text : List Char} {symbols : List Symbol}

theorem matchesAll_nil : matchesAll [] text = true ↔ text = [] := by
  rw [matchesAll, List.isEmpty_iff]

theorem matchesAll_anything :
    matchesAll (.anything :: symbols) text = true ↔
      ∃ before rest, text = before ++ rest ∧ matchesAll symbols rest = true := by
  rw [matchesAll, List.any_eq_true]
  constructor
  · rintro ⟨rest, hrest, h⟩
    obtain ⟨before, hbefore⟩ := (List.mem_tails rest text).1 hrest
    exact ⟨before, rest, hbefore.symm, h⟩
  · rintro ⟨before, rest, rfl, h⟩
    exact ⟨rest, (List.mem_tails rest _).2 (List.suffix_append before rest), h⟩

theorem matchesAll_lone_anything : matchesAll [.anything] text = true := by
  rw [matchesAll_anything]
  exact ⟨text, [], (List.append_nil text).symm, rfl⟩

/-- Characters that stand for themselves match themselves before what the other symbols match. -/
theorem matchesAll_exactly (s : List Char) :
    matchesAll (s.map .exactly ++ symbols) text = true ↔
      ∃ rest, text = s ++ rest ∧ matchesAll symbols rest = true := by
  induction s generalizing text with
  | nil => simp
  | cons c s ih =>
    cases text with
    | nil => simp [matchesAll]
    | cons d text =>
      simp only [List.map_cons, List.cons_append, matchesAll, Bool.and_eq_true, beq_iff_eq,
        List.cons.injEq]
      rw [ih]
      constructor
      · rintro ⟨rfl, rest, hrest, h⟩
        exact ⟨rest, ⟨rfl, hrest⟩, h⟩
      · rintro ⟨rest, ⟨rfl, hrest⟩, h⟩
        exact ⟨rfl, rest, hrest, h⟩

/-! ## Escaped texts -/

theorem isSpecial_eq_false {c : Char} :
    isSpecial c = false ↔ c ≠ '%' ∧ c ≠ '_' ∧ c ≠ escapeChar := by
  simp [isSpecial, and_assoc]

/-- A text with another in the place of every occurrence of a character. -/
def replaceChar (c : Char) (replacement s : List Char) : List Char :=
  s.flatMap fun d => if d = c then replacement else [d]

/-- A text with the special characters escaped one after another. The escape character is the first
of them: those that are put in for the others are not escaped again. -/
def escapeInTurn (s : List Char) : List Char :=
  replaceChar '_' [escapeChar, '_'] (replaceChar '%' [escapeChar, '%']
    (replaceChar escapeChar [escapeChar, escapeChar] s))

theorem escapeInTurn_append (s t : List Char) :
    escapeInTurn (s ++ t) = escapeInTurn s ++ escapeInTurn t := by
  simp only [escapeInTurn, replaceChar, List.flatMap_append]

theorem escapeInTurn_singleton (c : Char) : escapeInTurn [c] = escape [c] := by
  by_cases hescape : c = escapeChar
  · rw [hescape]
    decide
  by_cases hpercent : c = '%'
  · rw [hpercent]
    decide
  by_cases hunderscore : c = '_'
  · rw [hunderscore]
    decide
  simp [escapeInTurn, replaceChar, escape, isSpecial, hescape, hpercent, hunderscore]

/-- Escaping a text in one pass is escaping its special characters one after another. -/
theorem escape_eq_escapeInTurn (s : List Char) : escape s = escapeInTurn s := by
  induction s with
  | nil => rfl
  | cons c s ih =>
    have hfirst : escape (c :: s) = escape [c] ++ escape s := by
      simp only [escape]
      split <;> rfl
    rw [hfirst, ← escapeInTurn_singleton, ih]
    exact (escapeInTurn_append [c] s).symm

/-- An escaped text is read as its characters, before what follows it. -/
theorem symbols?_escape_append (s pattern : List Char) :
    symbols? (escape s ++ pattern) = (symbols? pattern).map (s.map .exactly ++ ·) := by
  unfold symbols?
  induction s with
  | nil => simp [escape]
  | cons c s ih =>
    rw [escape]
    by_cases hc : isSpecial c = true
    · rw [if_pos hc, List.cons_append, List.cons_append, symbolsFrom?, if_pos rfl, symbolsFrom?, ih,
        Option.map_map]
      rfl
    · obtain ⟨hpercent, hunderscore, hescape⟩ := isSpecial_eq_false.1 (by simpa using hc)
      have hplain : Symbol.ofChar c = .exactly c := by
        rw [Symbol.ofChar, if_neg hpercent, if_neg hunderscore]
      rw [if_neg hc, List.cons_append, symbolsFrom?, if_neg hescape, ih, hplain, Option.map_map]
      rfl

theorem isWellFormed_escape_append (s pattern : List Char) :
    isWellFormed (escape s ++ pattern) = isWellFormed pattern := by
  unfold isWellFormed
  induction s with
  | nil => rfl
  | cons c s ih =>
    rw [escape]
    by_cases hc : isSpecial c = true
    · rw [if_pos hc]
      show (isSpecial c && isWellFormedFrom false (escape s ++ pattern)) = _
      rw [hc, Bool.true_and, ih]
    · have hescape : (c == escapeChar) = false := by
        have hplain := isSpecial_eq_false.1 (Bool.eq_false_iff.2 hc)
        simpa using hplain.2.2
      rw [if_neg hc, List.cons_append, isWellFormedFrom, hescape, ih]

/-! ## Patterns of literal texts -/

theorem symbols?_anywhere (s : List Char) :
    symbols? (literal .anywhere s) = some (.anything :: (s.map .exactly ++ [.anything])) := by
  show (symbols? (escape s ++ ['%'])).map (Symbol.ofChar '%' :: ·) = _
  rw [symbols?_escape_append]
  rfl

theorem symbols?_atStart (s : List Char) :
    symbols? (literal .atStart s) = some (s.map .exactly ++ [.anything]) := by
  show symbols? (escape s ++ ['%']) = _
  rw [symbols?_escape_append]
  rfl

theorem symbols?_atEnd (s : List Char) :
    symbols? (literal .atEnd s) = some (.anything :: s.map .exactly) := by
  show (symbols? (escape s)).map (Symbol.ofChar '%' :: ·) = _
  rw [← List.append_nil (escape s), symbols?_escape_append, Option.map_map]
  show some (Symbol.anything :: (s.map .exactly ++ [])) = _
  rw [List.append_nil]

theorem isSome_symbols?_literal (position : Position) (s : List Char) :
    (symbols? (literal position s)).isSome = true := by
  cases position with
  | anywhere => rw [symbols?_anywhere]; rfl
  | atStart => rw [symbols?_atStart]; rfl
  | atEnd => rw [symbols?_atEnd]; rfl

theorem isWellFormed_literal (position : Position) (s : List Char) :
    isWellFormed (literal position s) = true := by
  cases position with
  | anywhere => exact isWellFormed_escape_append s ['%']
  | atStart => exact isWellFormed_escape_append s ['%']
  | atEnd =>
    have h := isWellFormed_escape_append s []
    rw [List.append_nil] at h
    exact h

theorem accepts_anywhere : accepts (literal .anywhere s) text = true ↔ s <:+: text := by
  rw [accepts, symbols?_anywhere]
  simp only
  rw [matchesAll_anything]
  constructor
  · rintro ⟨before, middle, rfl, h⟩
    obtain ⟨after, rfl, -⟩ := (matchesAll_exactly s).1 h
    exact ⟨before, after, List.append_assoc before s after⟩
  · rintro ⟨before, after, rfl⟩
    refine ⟨before, s ++ after, List.append_assoc before s after, ?_⟩
    exact (matchesAll_exactly s).2 ⟨after, rfl, matchesAll_lone_anything⟩

theorem accepts_atStart : accepts (literal .atStart s) text = true ↔ s <+: text := by
  rw [accepts, symbols?_atStart]
  simp only
  rw [matchesAll_exactly]
  constructor
  · rintro ⟨after, rfl, -⟩
    exact List.prefix_append s after
  · rintro ⟨after, rfl⟩
    exact ⟨after, rfl, matchesAll_lone_anything⟩

theorem accepts_atEnd : accepts (literal .atEnd s) text = true ↔ s <:+ text := by
  rw [accepts, symbols?_atEnd]
  simp only
  rw [matchesAll_anything]
  have hself (rest : List Char) : matchesAll (s.map .exactly) rest = true ↔ rest = s := by
    have h : matchesAll (s.map .exactly ++ []) rest = true ↔ _ := matchesAll_exactly s
    rw [List.append_nil] at h
    rw [h]
    simp [matchesAll_nil]
  constructor
  · rintro ⟨before, rest, rfl, h⟩
    rw [(hself rest).1 h]
    exact List.suffix_append before s
  · rintro ⟨before, rfl⟩
    exact ⟨before, s, rfl, (hself s).2 rfl⟩

@[simp] theorem toList_literalText (position : Position) (s : String) :
    (literalText position s).toList = literal position s.toList := by
  rw [literalText, String.toList_ofList]

end LikePattern

/-! ## Tests for literal texts -/

variable {Cell : Type}

/-- A database whose values can be read as texts, and which matches them against patterns with an
escape character as `LikePattern.accepts` does. -/
def Database.MatchesTexts (db : Database Cell) (text : Cell → String) : Prop :=
  ∀ cell pattern, db.like cell pattern false true =
    .ofBool (LikePattern.accepts pattern.toList (text cell).toList)

namespace Resolution

/-- A test of a field becomes, at a place, a condition that is written as a test of a column against
a bound pattern with a backslash for its escape character; and on every database that matches texts
it says of the text in this column what is said here. -/
def TestsText (registry : Registry) (now : Instant) (test : FieldTest) (scope : ResolveScope)
    (column : ColumnRef) (negated : Bool) (pattern : String) (said : List Char → Bool) : Prop :=
  ∃ c, fieldTest registry now test scope = .ok c ∧
    (∀ d start, Fragment.sql d start (c.fragment d) = column.text ++ " " ++
        Dialect.negation negated ++ "LIKE " ++ d.marker (start + 1) ++ " ESCAPE '\\'" ∧
      (c.fragment d).parameters = [.text pattern]) ∧
    ∀ {Cell : Type} (db : Database Cell) (text : Cell → String), db.MatchesTexts text →
      ∀ env : Env Cell, c.eval db env =
        .ofTest (column.value env) fun cell => .ofBool (said (text cell).toList)

variable {registry : Registry} {scope : ResolveScope} {entity : Entity} {name : String}
  {field : Field}

/-- A test for a literal text becomes a test against the pattern of the text. -/
theorem testsText_of_literal (hentity : registry.find? scope.entity = some entity)
    (hfield : entity.field? name = some field) (hkind : field.kind = .text) (now : Instant)
    {op : Operator} {position : LikePattern.Position} (hop : literalPosition? op = some position)
    (hcase : ignoresCase op = false) (s : String) {said : List Char → Bool}
    (hsaid : ∀ text, said text =
      (isNegated op != LikePattern.accepts (LikePattern.literal position s.toList) text)) :
    TestsText registry now ⟨name, op, .single (.text s)⟩ scope ⟨scope.aliasName, field.column⟩
      (isNegated op) (LikePattern.literalText position s) said := by
  have hpattern : op.isPattern = true := by
    cases op <;> first | rfl | cases hop
  have htest : fieldTest registry now ⟨name, op, .single (.text s)⟩ scope =
      .ok (.like ⟨scope.aliasName, field.column⟩ (LikePattern.literalText position s) false true
        (isNegated op)) := by
    refine fieldTest_eq_ok.2 ⟨entity, field, hentity, hfield, ?_, ?_⟩
    · rw [hkind, Operator.supports, hpattern, Bool.true_or]
    · refine (singleTest_pattern hpattern s).trans ?_
      rw [patternTest, hop, hcase]
  refine ⟨_, htest, fun d start => ⟨?_, ?_⟩, fun db text hdb env => ?_⟩
  · cases d <;> simp [Condition.fragment, Dialect.likeAround, Fragment.ofText, Fragment.ofValue,
      Fragment.sql, escapeClause, String.append_assoc]
  · cases d <;> rfl
  · rw [Condition.eval]
    cases (ColumnRef.mk scope.aliasName field.column).value env with
    | none => cases isNegated op <;> rfl
    | some cell =>
      simp only [Truth.ofTest, hdb cell, LikePattern.toList_literalText, hsaid]
      cases isNegated op with
      | false => simp [Truth.negatedIf]
      | true => simp [Truth.negatedIf, Truth.not_ofBool]

/-- Literal texts are matched literally. The patterns of a text match exactly the texts that hold
it, begin with it and end with it, and in each of them every escape character escapes a special one.
So the tests whether a field contains a text or not, begins with it or ends with it become
conditions that say just this of the texts in the column of the field, whatever characters the text
is made of; of a missing one they say nothing. -/
theorem literal_tests_exact (s : String) :
    (∀ t : String,
      (LikePattern.accepts (LikePattern.literalText .anywhere s).toList t.toList = true ↔
        s.toList <:+: t.toList) ∧
      (LikePattern.accepts (LikePattern.literalText .atStart s).toList t.toList = true ↔
        s.toList <+: t.toList) ∧
      (LikePattern.accepts (LikePattern.literalText .atEnd s).toList t.toList = true ↔
        s.toList <:+ t.toList)) ∧
    (∀ position, (LikePattern.symbols? (LikePattern.literalText position s).toList).isSome = true ∧
      LikePattern.isWellFormed (LikePattern.literalText position s).toList = true) ∧
    ∀ (registry : Registry) (scope : ResolveScope) (entity : Entity) (name : String)
      (field : Field), registry.find? scope.entity = some entity →
      entity.field? name = some field → field.kind = .text → ∀ now : Instant,
      let column : ColumnRef := ⟨scope.aliasName, field.column⟩
      TestsText registry now ⟨name, .contains, .single (.text s)⟩ scope column false
        (LikePattern.literalText .anywhere s) (fun t => decide (s.toList <:+: t)) ∧
      TestsText registry now ⟨name, .notContains, .single (.text s)⟩ scope column true
        (LikePattern.literalText .anywhere s) (fun t => !decide (s.toList <:+: t)) ∧
      TestsText registry now ⟨name, .startsWith, .single (.text s)⟩ scope column false
        (LikePattern.literalText .atStart s) (fun t => decide (s.toList <+: t)) ∧
      TestsText registry now ⟨name, .endsWith, .single (.text s)⟩ scope column false
        (LikePattern.literalText .atEnd s) (fun t => decide (s.toList <:+ t)) := by
  have hanywhere (t : List Char) : LikePattern.accepts (LikePattern.literal .anywhere s.toList) t =
      decide (s.toList <:+: t) :=
    Bool.eq_iff_iff.2 (by rw [LikePattern.accepts_anywhere, decide_eq_true_iff])
  have hstart (t : List Char) : LikePattern.accepts (LikePattern.literal .atStart s.toList) t =
      decide (s.toList <+: t) :=
    Bool.eq_iff_iff.2 (by rw [LikePattern.accepts_atStart, decide_eq_true_iff])
  have hend (t : List Char) : LikePattern.accepts (LikePattern.literal .atEnd s.toList) t =
      decide (s.toList <:+ t) :=
    Bool.eq_iff_iff.2 (by rw [LikePattern.accepts_atEnd, decide_eq_true_iff])
  refine ⟨fun t => ?_, fun position => ?_,
    fun registry scope entity name field hentity hfield hkind now => ⟨?_, ?_, ?_, ?_⟩⟩
  · simp only [LikePattern.toList_literalText]
    exact ⟨LikePattern.accepts_anywhere, LikePattern.accepts_atStart, LikePattern.accepts_atEnd⟩
  · rw [LikePattern.toList_literalText]
    exact ⟨LikePattern.isSome_symbols?_literal position s.toList,
      LikePattern.isWellFormed_literal position s.toList⟩
  · refine testsText_of_literal hentity hfield hkind now rfl rfl s fun t => ?_
    rw [hanywhere]
    exact (Bool.false_bne _).symm
  · refine testsText_of_literal hentity hfield hkind now rfl rfl s fun t => ?_
    rw [hanywhere]
    exact (Bool.true_bne _).symm
  · refine testsText_of_literal hentity hfield hkind now rfl rfl s fun t => ?_
    rw [hstart]
    exact (Bool.false_bne _).symm
  · refine testsText_of_literal hentity hfield hkind now rfl rfl s fun t => ?_
    rw [hend]
    exact (Bool.false_bne _).symm

end Resolution

/-- A database of texts that are matched against patterns, and of no other test. -/
def Database.ofPatterns : Database String where
  table _ := []
  compare _ _ _ := .unknown
  between _ _ _ := .unknown
  like cell pattern _ _ := .ofBool (LikePattern.accepts pattern.toList cell.toList)
  same _ _ := .unknown
  piece _ _ _ := .unknown

/-- A text of all the special characters is looked for in two texts, one of which holds it. -/
theorem Resolution.literal_tests_exact_special :
    ∃ c, fieldTest Catalog.registry ⟨0, 0⟩ ⟨"name", .contains, .single (.text "%_\\")⟩
        ⟨"card", none, "t0"⟩ = .ok c ∧
      c.eval Database.ofPatterns (fun _ _ => some "50%_\\ off") = .holds ∧
      c.eval Database.ofPatterns (fun _ _ => some "50%a\\ off") = .fails := by
  have htests := (literal_tests_exact "%_\\").2.2
  have hname : Catalog.card.field? "name" = some ⟨"name", .text⟩ := rfl
  obtain ⟨⟨c, hc, -, heval⟩, -⟩ :=
    htests Catalog.registry ⟨"card", none, "t0"⟩ Catalog.card "name" _ rfl hname rfl ⟨0, 0⟩
  have hdb : Database.ofPatterns.MatchesTexts id := fun _ _ => rfl
  refine ⟨c, hc, ?_, ?_⟩
  · rw [heval _ id hdb]
    decide
  · rw [heval _ id hdb]
    decide

end FilterQuery
