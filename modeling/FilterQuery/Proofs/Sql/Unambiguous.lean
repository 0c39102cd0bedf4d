import FilterQuery.Proofs.Sql.Syntax

/-!
# SQL is read in one way

A text reads as one tree at most (`Expr.tokens_inj`). The reason is that the tokens of an expression
say where it ends: no other expression has tokens of which these are the beginning, unless the next
token is one that goes on with an expression of its level. This is `Determined`, which is shown by
induction on the expression, at its own level first and then at the levels that bind less.
-/

namespace FilterQuery.Sql

/-! ## Levels -/

theorem Level.or_le (l : Level) : .or ≤ l :=
  Nat.zero_le l.rank

/-- The level that binds next more, if there is one. -/
def Level.next : Level → Level
  | .or => .and
  | .and => .not
  | .not => .predicate
  | .predicate => .operand
  | .operand => .operand

theorem Level.eq_or_next_le {l m : Level} (h : l ≤ m) : l = m ∨ l.next ≤ m := by
  revert h
  cases l <;> cases m <;> decide

theorem Level.operand_le {l : Level} (h : .operand ≤ l) : l = .operand := by
  revert h
  cases l <;> decide

theorem Level.le_trans {l m n : Level} (h : l ≤ m) (h' : m ≤ n) : l ≤ n :=
  Nat.le_trans h h'

theorem Connective.level_le (op : Connective) : op.level ≤ op.itemLevel := by
  cases op <;> decide

/-! ## What goes on with an expression -/

/-- The tokens with which a predicate goes on. -/
def predicateTokens : List Token :=
  [.symbol "=", .symbol "<>", .symbol "<", .symbol "<=", .symbol ">", .symbol ">=", .keyword "IS",
    .keyword "NOT", .keyword "BETWEEN", .keyword "LIKE", .keyword "ILIKE", .keyword "ESCAPE",
    .keyword "IN"]

/-- The tokens with which an expression of a level goes on. -/
def Level.continuations : Level → List Token
  | .operand => []
  | .predicate => predicateTokens
  | .not => predicateTokens
  | .and => .keyword "AND" :: predicateTokens
  | .or => .keyword "OR" :: .keyword "AND" :: predicateTokens

/-- What does not go on with an expression of a level. -/
def Ends (l : Level) (r : List Token) : Prop :=
  ∀ t ∈ r.head?, t ∉ l.continuations

theorem ends_nil (l : Level) : Ends l [] := by
  simp [Ends]

theorem ends_cons {l : Level} {t : Token} {r : List Token} :
    Ends l (t :: r) ↔ t ∉ l.continuations := by
  simp [Ends]

/-- Nothing goes on behind a parenthesis that ends. -/
theorem ends_parenthesis (r : List Token) : Ends .or (.symbol ")" :: r) :=
  ends_cons.2 (by decide)

theorem ends_operand (r : List Token) : Ends .operand r := by
  simp [Ends, Level.continuations]

theorem Level.continuations_subset {l m : Level} (h : l ≤ m) :
    m.continuations ⊆ l.continuations := by
  revert h
  cases l <;> cases m <;> decide

theorem Ends.mono {l m : Level} {r : List Token} (h : Ends l r) (hlm : l ≤ m) : Ends m r :=
  fun t ht hmem => h t ht (Level.continuations_subset hlm hmem)

/-! ## First tokens -/

/-- The tokens with which no expression of a level begins. -/
def Level.nonStarters : Level → List Token
  | .operand => [.keyword "SELECT", .symbol "*", .keyword "NOT", .keyword "EXISTS"]
  | .predicate => [.keyword "SELECT", .symbol "*", .keyword "NOT"]
  | _ => [.keyword "SELECT", .symbol "*"]

theorem Level.nonStarters_subset {l m : Level} (h : l ≤ m) : l.nonStarters ⊆ m.nonStarters := by
  revert h
  cases l <;> cases m <;> decide

/-- An expression has a first token. -/
theorem Expr.first : ∀ e : Expr, e.WellFormed →
    ∃ t ts, e.tokens = t :: ts ∧ t ∉ e.level.nonStarters
  | .column _ _, _ | .marker, _ | .number _, _ | .text _, _ | .call _ _, _ | .callRows _, _
  | .group _, _ | .value _, _ | .hasRows _, _ | .not _, _ =>
    ⟨_, _, rfl, by simp [Level.nonStarters]⟩
  | .test e p, ⟨hlevel, he, _⟩ => by
    obtain ⟨t, ts, hts, ht⟩ := e.first he
    refine ⟨t, ts ++ p.tokens, by rw [Expr.tokens, hts, List.cons_append], fun hmem => ht ?_⟩
    have hbelow : Level.predicate ≤ .operand := by decide
    exact Level.nonStarters_subset (Level.le_trans hbelow hlevel) hmem
  | .chain op [], ⟨hlength, _⟩ => by simp at hlength
  | .chain op (e :: es), ⟨_, ⟨hlevel, he⟩, _⟩ => by
    obtain ⟨t, ts, hts, ht⟩ := e.first he
    refine ⟨t, ts ++ Expr.continued op.token es, ?_, fun hmem => ht ?_⟩
    · rw [Expr.tokens, Expr.separated, hts, List.cons_append]
    · exact Level.nonStarters_subset (Level.le_trans op.level_le hlevel) hmem

/-- What an expression begins with is not the first token of something else. -/
theorem Expr.tokens_append_ne {e : Expr} (he : e.WellFormed) {l : Level} (hl : l ≤ e.level)
    {t : Token} (ht : t ∈ l.nonStarters) (r r' : List Token) : e.tokens ++ r ≠ t :: r' := by
  obtain ⟨u, ts, hts, hu⟩ := e.first he
  rw [hts, List.cons_append]
  rintro heq
  obtain ⟨rfl, -⟩ := List.cons.inj heq
  exact hu (Level.nonStarters_subset hl ht)

/-- An expression does not begin as a query. -/
theorem Expr.tokens_append_ne_query {e : Expr} (he : e.WellFormed) (q : Query)
    (r r' : List Token) : e.tokens ++ r ≠ q.tokens ++ r' := by
  obtain ⟨selected, table, aliasName, joins, condition⟩ := q
  rw [Query.tokens, List.cons_append]
  exact e.tokens_append_ne he (Level.or_le _) (by decide) _ _

/-- A predicate begins with a token that goes on with its operand. -/
theorem Predicate.first (p : Predicate) : ∃ t ts, p.tokens = t :: ts ∧ t ∈ predicateTokens := by
  cases p with
  | compare op right =>
    refine ⟨_, _, rfl, ?_⟩
    cases op <;> decide
  | is _ _ => exact ⟨_, _, rfl, by decide⟩
  | between negated _ _ => cases negated <;> exact ⟨_, _, rfl, by decide⟩
  | like negated ignoreCase _ =>
    cases negated <;> cases ignoreCase <;> exact ⟨_, _, rfl, by decide⟩
  | likeEscaped negated ignoreCase _ _ =>
    cases negated <;> cases ignoreCase <;> exact ⟨_, _, rfl, by decide⟩
  | isIn negated _ => cases negated <;> exact ⟨_, _, rfl, by decide⟩

theorem Predicate.not_ends (p : Predicate) (r : List Token) :
    ¬ Ends .predicate (p.tokens ++ r) := by
  obtain ⟨t, ts, hts, ht⟩ := p.first
  rw [hts, List.cons_append, ends_cons]
  exact not_not_intro ht

/-! ## Where expressions end -/

/-- The tokens of an expression say where it ends and which it is, among the expressions of at least
a level. -/
def Determined (l : Level) (e : Expr) : Prop :=
  ∀ e' r r', l ≤ e'.level → e'.WellFormed → Ends l r → Ends l r' →
    e.tokens ++ r = e'.tokens ++ r' → e = e' ∧ r = r'

/-- An operand ends whatever follows. -/
theorem Determined.inj {e e' : Expr} (h : Determined .operand e)
    (he' : e'.Fits .operand) {r r' : List Token} (heq : e.tokens ++ r = e'.tokens ++ r') :
    e = e' ∧ r = r' :=
  h e' r r' he'.1 he'.2 (ends_operand r) (ends_operand r') heq

/-- The tokens of a predicate say where it ends and which it is. -/
def Predicate.Determined (p : Predicate) : Prop :=
  ∀ p' r r', p'.WellFormed → Ends .predicate r → Ends .predicate r' →
    p.tokens ++ r = p'.tokens ++ r' → p = p' ∧ r = r'

/-- The tokens of a query say where it ends and which it is. -/
def Query.Determined (q : Query) : Prop :=
  ∀ q' r r', q'.WellFormed → Ends .or r → Ends .or r' →
    q.tokens ++ r = q'.tokens ++ r' → q = q' ∧ r = r'

/-- What stands in parentheses ends before the second of these. -/
theorem Determined.parentheses {e e' : Expr} (h : Determined .or e) (he' : e'.WellFormed)
    {r r' : List Token}
    (heq : e.tokens ++ [Token.symbol ")"] ++ r = e'.tokens ++ [Token.symbol ")"] ++ r') :
    e = e' ∧ r = r' := by
  rw [List.append_assoc, List.append_assoc] at heq
  obtain ⟨rfl, hr⟩ := h e' _ _ (Level.or_le _) he' (ends_parenthesis r) (ends_parenthesis r') heq
  exact ⟨rfl, (List.cons.inj hr).2⟩

theorem Query.Determined.parentheses {q q' : Query} (h : q.Determined) (hq' : q'.WellFormed)
    {r r' : List Token}
    (heq : q.tokens ++ [Token.symbol ")"] ++ r = q'.tokens ++ [Token.symbol ")"] ++ r') :
    q = q' ∧ r = r' := by
  rw [List.append_assoc, List.append_assoc] at heq
  obtain ⟨rfl, hr⟩ := h q' _ _ hq' (ends_parenthesis r) (ends_parenthesis r') heq
  exact ⟨rfl, (List.cons.inj hr).2⟩

/-! ### Expressions with a token between them -/

section Separated

variable {l : Level} {separator : Token} {es es' : List Expr} {r r' : List Token}

theorem ends_continued (hseparator : separator ∉ l.continuations) (es : List Expr)
    (hr : Ends l r) : Ends l (Expr.continued separator es ++ r) := by
  cases es with
  | nil => exact hr
  | cons e es => exact ends_cons.2 hseparator

/-- Expressions with a token before each, where each ends before this token, are determined by
their tokens. -/
theorem continued_inj (hseparator : separator ∉ l.continuations)
    (hes : ∀ e ∈ es, Determined l e) (hes' : Expr.AllWellFormed l es') (hr : Ends l r)
    (hr' : Ends l r') (hne : separator ∉ r.head?) (hne' : separator ∉ r'.head?)
    (heq : Expr.continued separator es ++ r = Expr.continued separator es' ++ r') :
    es = es' ∧ r = r' := by
  induction es generalizing es' with
  | nil =>
    cases es' with
    | nil => exact ⟨rfl, heq⟩
    | cons e' es' =>
      obtain rfl : r = _ := heq
      exact absurd rfl hne
  | cons e es ih =>
    cases es' with
    | nil =>
      obtain rfl : _ = r' := heq
      exact absurd rfl hne'
    | cons e' es' =>
      rw [List.forall_mem_cons] at hes
      obtain ⟨⟨hlevel, he'⟩, hes'⟩ := hes'
      simp only [Expr.continued, List.cons_append, List.append_assoc] at heq
      obtain ⟨rfl, hrest⟩ := hes.1 e' _ _ hlevel he' (ends_continued hseparator es hr)
        (ends_continued hseparator es' hr') (List.cons.inj heq).2
      obtain ⟨rfl, hrr⟩ := ih hes.2 hes' hrest
      exact ⟨rfl, hrr⟩

theorem separated_inj (hseparator : separator ∉ l.continuations) (hnil : es ≠ [])
    (hnil' : es' ≠ []) (hes : ∀ e ∈ es, Determined l e) (hes' : Expr.AllWellFormed l es')
    (hr : Ends l r) (hr' : Ends l r') (hne : separator ∉ r.head?) (hne' : separator ∉ r'.head?)
    (heq : Expr.separated separator es ++ r = Expr.separated separator es' ++ r') :
    es = es' ∧ r = r' := by
  cases es with
  | nil => exact absurd rfl hnil
  | cons e es =>
    cases es' with
    | nil => exact absurd rfl hnil'
    | cons e' es' =>
      refine continued_inj hseparator hes hes' hr hr' hne hne' ?_
      simp only [Expr.separated, List.append_assoc] at heq
      simp only [Expr.continued, List.cons_append, List.append_assoc, heq]

end Separated

/-! ### Operands -/

section Operands

variable {e : Expr} {q : Query}

/-- The expressions that are operands. -/
theorem Expr.operandCases {motive : (e : Expr) → .operand ≤ e.level → Prop}
    (column : ∀ table column h, motive (.column table column) h) (marker : ∀ h, motive .marker h)
    (number : ∀ digits h, motive (.number digits) h) (text : ∀ text h, motive (.text text) h)
    (call : ∀ function argument h, motive (.call function argument) h)
    (callRows : ∀ function h, motive (.callRows function) h)
    (group : ∀ inner h, motive (.group inner) h) (value : ∀ query h, motive (.value query) h)
    (e : Expr) (h : .operand ≤ e.level) : motive e h := by
  cases e with
  | column _ _ => exact column _ _ h
  | marker => exact marker h
  | number _ => exact number _ h
  | text _ => exact text _ h
  | call _ _ => exact call _ _ h
  | callRows _ => exact callRows _ h
  | group _ => exact group _ h
  | value _ => exact value _ h
  | test _ _ | hasRows _ | not _ => simp at h
  | chain op _ => cases op <;> simp at h

theorem Determined.column (table column : String) : Determined .operand (.column table column) := by
  intro e' r r' hlevel _ _ _ heq
  cases e', hlevel using Expr.operandCases with
  | column table' column' => simpa [Expr.tokens, and_assoc] using heq
  | _ => simp [Expr.tokens] at heq

theorem Determined.marker : Determined .operand .marker := by
  intro e' r r' hlevel _ _ _ heq
  cases e', hlevel using Expr.operandCases with
  | marker => simpa [Expr.tokens] using heq
  | _ => simp [Expr.tokens] at heq

theorem Determined.number (digits : String) : Determined .operand (.number digits) := by
  intro e' r r' hlevel _ _ _ heq
  cases e', hlevel using Expr.operandCases with
  | number _ => simpa [Expr.tokens] using heq
  | _ => simp [Expr.tokens] at heq

theorem Determined.text (text : String) : Determined .operand (.text text) := by
  intro e' r r' hlevel _ _ _ heq
  cases e', hlevel using Expr.operandCases with
  | text _ => simpa [Expr.tokens] using heq
  | _ => simp [Expr.tokens] at heq

theorem Determined.call (h : Determined .or e) (he : e.WellFormed) (function : String) :
    Determined .operand (.call function e) := by
  intro e' r r' hlevel hwf _ _ heq
  cases e', hlevel using Expr.operandCases with
  | call function' e' =>
    have he' : e'.WellFormed := hwf
    obtain ⟨hname, hrest⟩ := List.cons.inj heq
    obtain rfl := Token.name.inj hname
    obtain ⟨rfl, hr⟩ := h.parentheses he' (List.cons.inj hrest).2
    exact ⟨rfl, hr⟩
  | callRows _ =>
    simp only [Expr.tokens, List.cons_append, List.cons.injEq, List.append_assoc] at heq
    exact absurd heq.2.2 (e.tokens_append_ne he (Level.or_le _) (by decide) _ _)
  | _ => simp [Expr.tokens] at heq

theorem Determined.callRows (function : String) : Determined .operand (.callRows function) := by
  intro e' r r' hlevel hwf _ _ heq
  cases e', hlevel using Expr.operandCases with
  | callRows _ => simpa [Expr.tokens] using heq
  | call _ e' =>
    have he' : e'.WellFormed := hwf
    simp only [Expr.tokens, List.cons_append, List.cons.injEq, List.append_assoc] at heq
    exact absurd heq.2.2.symm (e'.tokens_append_ne he' (Level.or_le _) (by decide) _ _)
  | _ => simp [Expr.tokens] at heq

theorem Determined.group (h : Determined .or e) (he : e.WellFormed) :
    Determined .operand (.group e) := by
  intro e' r r' hlevel hwf _ _ heq
  cases e', hlevel using Expr.operandCases with
  | group e' =>
    have he' : e'.WellFormed := hwf
    obtain ⟨rfl, hr⟩ := h.parentheses he' (List.cons.inj heq).2
    exact ⟨rfl, hr⟩
  | value q =>
    simp only [Expr.tokens, List.cons_append, List.cons.injEq, List.append_assoc] at heq
    exact absurd heq.2 (e.tokens_append_ne_query he q _ _)
  | _ => simp [Expr.tokens] at heq

theorem Determined.value (h : q.Determined) : Determined .operand (.value q) := by
  intro e' r r' hlevel hwf _ _ heq
  cases e', hlevel using Expr.operandCases with
  | value q' =>
    have hq' : q'.WellFormed := hwf
    obtain ⟨rfl, hr⟩ := h.parentheses hq' (List.cons.inj heq).2
    exact ⟨rfl, hr⟩
  | group e' =>
    have he' : e'.WellFormed := hwf
    simp only [Expr.tokens, List.cons_append, List.cons.injEq, List.append_assoc] at heq
    exact absurd heq.2.symm (e'.tokens_append_ne_query he' q _ _)
  | _ => simp [Expr.tokens] at heq

end Operands

/-! ### Predicates -/

@[simp] theorem likeToken_ne_symbol (i : Bool) (s : String) : likeToken i ≠ .symbol s := by
  cases i <;> simp [likeToken]

@[simp] theorem symbol_ne_likeToken (i : Bool) (s : String) : .symbol s ≠ likeToken i :=
  (likeToken_ne_symbol i s).symm

@[simp] theorem likeToken_ne_keyword (i : Bool) {w : String} (h : w ≠ "LIKE") (h' : w ≠ "ILIKE") :
    likeToken i ≠ .keyword w := by
  cases i <;> simp [likeToken, h.symm, h'.symm]

@[simp] theorem keyword_ne_likeToken (i : Bool) {w : String} (h : w ≠ "LIKE") (h' : w ≠ "ILIKE") :
    .keyword w ≠ likeToken i :=
  (likeToken_ne_keyword i h h').symm

namespace Predicate

/-- Whether a predicate begins with `NOT`. -/
def negated : Predicate → Bool
  | .between negated _ _ | .like negated _ _ | .likeEscaped negated _ _ _ | .isIn negated _ =>
    negated
  | .compare _ _ | .is _ _ => false

/-- The token of a predicate that says which it is. -/
def word : Predicate → Token
  | .compare op _ => .symbol op.symbol
  | .is _ _ => .keyword "IS"
  | .between _ _ _ => .keyword "BETWEEN"
  | .like _ ignoreCase _ | .likeEscaped _ ignoreCase _ _ => likeToken ignoreCase
  | .isIn _ _ => .keyword "IN"

/-- The tokens of a predicate after the one that says which it is. -/
def tail : Predicate → List Token
  | .compare _ right => right.tokens
  | .is negated property => negation negated ++ [property.token]
  | .between _ low high => low.tokens ++ .keyword "AND" :: high.tokens
  | .like _ _ pattern => pattern.tokens
  | .likeEscaped _ _ pattern escape => pattern.tokens ++ .keyword "ESCAPE" :: escape.tokens
  | .isIn _ items => .symbol "(" :: (Expr.separated (.symbol ",") items ++ [.symbol ")"])

theorem tokens_eq (p : Predicate) : p.tokens = negation p.negated ++ p.word :: p.tail := by
  cases p <;> rfl

theorem word_ne_not (p : Predicate) : p.word ≠ .keyword "NOT" := by
  cases p <;> simp [word]

end Predicate

theorem negation_cons_inj {negated negated' : Bool} {t t' : Token} {r r' : List Token}
    (ht : t ≠ .keyword "NOT") (ht' : t' ≠ .keyword "NOT")
    (h : negation negated ++ t :: r = negation negated' ++ t' :: r') :
    negated = negated' ∧ t = t' ∧ r = r' := by
  cases negated <;> cases negated' <;> simp_all [negation, eq_comm]

/-- Predicates with the same tokens agree in their parts. -/
theorem Predicate.tokens_inj_parts {p p' : Predicate} {r r' : List Token}
    (h : p.tokens ++ r = p'.tokens ++ r') :
    p.negated = p'.negated ∧ p.word = p'.word ∧ p.tail ++ r = p'.tail ++ r' := by
  rw [p.tokens_eq, p'.tokens_eq, List.append_assoc, List.append_assoc] at h
  exact negation_cons_inj p.word_ne_not p'.word_ne_not h

theorem Comparison.symbol_inj {op op' : Comparison} (h : op.symbol = op'.symbol) : op = op' := by
  revert h
  cases op <;> cases op' <;> decide

theorem Property.token_ne_not (property : Property) : property.token ≠ .keyword "NOT" := by
  cases property <;> decide

theorem Property.token_inj {property property' : Property}
    (h : property.token = property'.token) : property = property' := by
  revert h
  cases property <;> cases property' <;> decide

theorem likeToken_inj {i i' : Bool} (h : likeToken i = likeToken i') : i = i' := by
  revert h
  cases i <;> cases i' <;> decide

section Predicates

variable {e low high pattern escape : Expr} {items : List Expr}

theorem Predicate.determined_compare (h : Sql.Determined .operand e) (op : Comparison) :
    (compare op e).Determined := by
  intro p' r r' hwf _ _ heq
  obtain ⟨hnegated, hword, htail⟩ := Predicate.tokens_inj_parts heq
  cases p' with
  | compare op' e' =>
    obtain rfl := Comparison.symbol_inj (Token.symbol.inj hword)
    obtain ⟨rfl, hr⟩ := h.inj hwf htail
    exact ⟨rfl, hr⟩
  | _ => simp [Predicate.word] at hword

theorem Predicate.determined_is (negated : Bool) (property : Property) :
    (is negated property).Determined := by
  intro p' r r' hwf _ _ heq
  obtain ⟨hnegated, hword, htail⟩ := Predicate.tokens_inj_parts heq
  cases p' with
  | is negated' property' =>
    simp only [Predicate.tail, List.append_assoc] at htail
    obtain ⟨rfl, hproperty, hr⟩ := negation_cons_inj property.token_ne_not property'.token_ne_not
      htail
    obtain rfl := Property.token_inj hproperty
    exact ⟨rfl, hr⟩
  | _ => simp [Predicate.word] at hword

theorem Predicate.determined_between (hlow : Sql.Determined .operand low)
    (hhigh : Sql.Determined .operand high) (negated : Bool) :
    (Predicate.between negated low high).Determined := by
  intro p' r r' hwf _ _ heq
  obtain ⟨hnegated, hword, htail⟩ := Predicate.tokens_inj_parts heq
  cases p' with
  | between negated' low' high' =>
    obtain ⟨hlow', hhigh'⟩ := hwf
    obtain rfl : negated = negated' := hnegated
    simp only [Predicate.tail, List.append_assoc, List.cons_append] at htail
    obtain ⟨rfl, hrest⟩ := hlow.inj hlow' htail
    obtain ⟨rfl, hr⟩ := hhigh.inj hhigh' (List.cons.inj hrest).2
    exact ⟨rfl, hr⟩
  | _ => simp [Predicate.word] at hword

theorem escape_mem_continuations : Token.keyword "ESCAPE" ∈ Level.predicate.continuations := by
  decide

theorem Predicate.determined_like (h : Sql.Determined .operand pattern)
    (negated ignoreCase : Bool) : (Predicate.like negated ignoreCase pattern).Determined := by
  intro p' r r' hwf hr hr' heq
  obtain ⟨hnegated, hword, htail⟩ := Predicate.tokens_inj_parts heq
  cases p' with
  | like negated' ignoreCase' pattern' =>
    obtain rfl : negated = negated' := hnegated
    obtain rfl := likeToken_inj hword
    obtain ⟨rfl, hrr⟩ := h.inj hwf htail
    exact ⟨rfl, hrr⟩
  | likeEscaped negated' ignoreCase' pattern' escape' =>
    simp only [Predicate.tail, List.append_assoc, List.cons_append] at htail
    obtain ⟨-, rfl⟩ := h.inj hwf.1 htail
    exact absurd escape_mem_continuations (ends_cons.1 hr)
  | _ => simp [Predicate.word] at hword

theorem Predicate.determined_likeEscaped (h : Sql.Determined .operand pattern)
    (hescape : Sql.Determined .operand escape) (negated ignoreCase : Bool) :
    (Predicate.likeEscaped negated ignoreCase pattern escape).Determined := by
  intro p' r r' hwf hr hr' heq
  obtain ⟨hnegated, hword, htail⟩ := Predicate.tokens_inj_parts heq
  cases p' with
  | likeEscaped negated' ignoreCase' pattern' escape' =>
    obtain ⟨hpattern', hescape'⟩ := hwf
    obtain rfl : negated = negated' := hnegated
    obtain rfl := likeToken_inj hword
    simp only [Predicate.tail, List.append_assoc, List.cons_append] at htail
    obtain ⟨rfl, hrest⟩ := h.inj hpattern' htail
    obtain ⟨rfl, hrr⟩ := hescape.inj hescape' (List.cons.inj hrest).2
    exact ⟨rfl, hrr⟩
  | like negated' ignoreCase' pattern' =>
    simp only [Predicate.tail, List.append_assoc, List.cons_append] at htail
    obtain ⟨-, rfl⟩ := h.inj hwf htail
    exact absurd escape_mem_continuations (ends_cons.1 hr')
  | _ => simp [Predicate.word] at hword

theorem Predicate.determined_isIn (hnil : items ≠ []) (h : ∀ e ∈ items, Sql.Determined .or e)
    (negated : Bool) : (Predicate.isIn negated items).Determined := by
  intro p' r r' hwf hr hr' heq
  obtain ⟨hnegated, hword, htail⟩ := Predicate.tokens_inj_parts heq
  cases p' with
  | isIn negated' items' =>
    obtain ⟨hnil', hitems'⟩ := hwf
    obtain rfl : negated = negated' := hnegated
    simp only [Predicate.tail, List.append_assoc, List.cons_append] at htail
    obtain ⟨rfl, hrest⟩ := separated_inj (by decide) hnil hnil' h hitems' (ends_parenthesis _)
      (ends_parenthesis _) (by simp) (by simp) (List.cons.inj htail).2
    exact ⟨rfl, (List.cons.inj hrest).2⟩
  | _ => simp [Predicate.word] at hword

end Predicates

/-! ### Levels -/

section Levels

variable {e : Expr} {p : Predicate} {q : Query} {op : Connective} {es es' : List Expr}

theorem Expr.predicate_cases (h : .predicate ≤ e.level) :
    (∃ operand p, e = .test operand p) ∨ (∃ q, e = .hasRows q) ∨ .operand ≤ e.level := by
  cases e with
  | test operand p => exact .inl ⟨operand, p, rfl⟩
  | hasRows q => exact .inr (.inl ⟨q, rfl⟩)
  | not _ => simp at h
  | chain op _ => cases op <;> simp at h
  | _ => exact .inr (.inr (Nat.le_refl _))

theorem Expr.not_cases (h : .not ≤ e.level) : (∃ inner, e = .not inner) ∨ .predicate ≤ e.level := by
  cases e with
  | not inner => exact .inl ⟨inner, rfl⟩
  | chain op _ => cases op <;> simp at h
  | _ => exact .inr (by simp)

/-- An operand that no predicate follows. -/
theorem Determined.predicate_of_operand (hlevel : .operand ≤ e.level) (he : e.WellFormed)
    (h : Determined .operand e) : Determined .predicate e := by
  intro e' r r' hlevel' hwf hr hr' heq
  obtain ⟨operand, p, rfl⟩ | ⟨q, rfl⟩ | hoperand := Expr.predicate_cases hlevel'
  · obtain ⟨hbelow, hoperand, -⟩ := hwf
    rw [Expr.tokens, List.append_assoc] at heq
    obtain ⟨-, rfl⟩ := h.inj ⟨hbelow, hoperand⟩ heq
    exact absurd hr (p.not_ends r')
  · exact absurd heq (e.tokens_append_ne he hlevel (by decide) _ _)
  · exact h.inj ⟨hoperand, hwf⟩ heq

theorem Determined.test (hlevel : .operand ≤ e.level) (he : e.WellFormed)
    (h : Determined .operand e) (hp : p.Determined) : Determined .predicate (.test e p) := by
  intro e' r r' hlevel' hwf hr hr' heq
  rw [Expr.tokens, List.append_assoc] at heq
  obtain ⟨operand, p', rfl⟩ | ⟨q, rfl⟩ | hoperand := Expr.predicate_cases hlevel'
  · obtain ⟨hbelow, hoperand, hp'⟩ := hwf
    rw [Expr.tokens, List.append_assoc] at heq
    obtain ⟨rfl, hrest⟩ := h.inj ⟨hbelow, hoperand⟩ heq
    obtain ⟨rfl, hrr⟩ := hp p' r r' hp' hr hr' hrest
    exact ⟨rfl, hrr⟩
  · exact absurd heq (e.tokens_append_ne he hlevel (by decide) _ _)
  · obtain ⟨-, rfl⟩ := h.inj ⟨hoperand, hwf⟩ heq
    exact absurd hr' (p.not_ends r)

theorem Query.Determined.hasRows (h : q.Determined) : Sql.Determined .predicate (.hasRows q) := by
  intro e' r r' hlevel' hwf hr hr' heq
  obtain ⟨operand, p', rfl⟩ | ⟨q', rfl⟩ | hoperand := Expr.predicate_cases hlevel'
  · obtain ⟨hbelow, hoperand, -⟩ := hwf
    rw [Expr.tokens, List.append_assoc] at heq
    exact absurd heq.symm (operand.tokens_append_ne hoperand hbelow (by decide) _ _)
  · have hq' : q'.WellFormed := hwf
    obtain ⟨rfl, hrr⟩ := h.parentheses hq' (List.cons.inj (List.cons.inj heq).2).2
    exact ⟨rfl, hrr⟩
  · exact absurd heq.symm (e'.tokens_append_ne hwf hoperand (by decide) _ _)

theorem Determined.not_of_predicate (hlevel : .predicate ≤ e.level) (he : e.WellFormed)
    (h : Determined .predicate e) : Determined .not e := by
  intro e' r r' hlevel' hwf hr hr' heq
  obtain ⟨inner, rfl⟩ | hpredicate := Expr.not_cases hlevel'
  · exact absurd heq (e.tokens_append_ne he hlevel (by decide) _ _)
  · exact h e' r r' hpredicate hwf hr hr' heq

theorem Determined.not (h : Determined .not e) : Determined .not (.not e) := by
  intro e' r r' hlevel' hwf hr hr' heq
  obtain ⟨inner, rfl⟩ | hpredicate := Expr.not_cases hlevel'
  · obtain ⟨hbelow, hinner⟩ := hwf
    obtain ⟨rfl, hrr⟩ := h inner r r' hbelow hinner hr hr' (List.cons.inj heq).2
    exact ⟨rfl, hrr⟩
  · exact absurd heq.symm (e'.tokens_append_ne hwf hpredicate (by decide) _ _)

/-- The expressions between which a connective stands, or the lone one. -/
def Expr.Splits (op : Connective) (e : Expr) (es : List Expr) : Prop :=
  e = .chain op es ∨ es = [e] ∧ op.itemLevel ≤ e.level

namespace Expr.Splits

theorem exists_of_level (h : op.level ≤ e.level) : ∃ es, Splits op e es := by
  cases e with
  | chain op' es =>
    cases op <;> cases op'
    · exact ⟨es, .inl rfl⟩
    · simp at h
    · exact ⟨[.chain .and es], .inr ⟨rfl, by simp⟩⟩
    · exact ⟨es, .inl rfl⟩
  | _ => exact ⟨_, .inr ⟨rfl, by cases op <;> simp⟩⟩

theorem tokens (h : Splits op e es) : e.tokens = Expr.separated op.token es := by
  obtain rfl | ⟨rfl, -⟩ := h
  · rw [Expr.tokens]
  · rw [Expr.separated, Expr.continued, List.append_nil]

theorem allWellFormed (h : Splits op e es) (he : e.WellFormed) :
    es ≠ [] ∧ Expr.AllWellFormed op.itemLevel es := by
  obtain rfl | ⟨rfl, hlevel⟩ := h
  · refine ⟨?_, he.2⟩
    rintro rfl
    exact absurd he.1 (by decide)
  · exact ⟨by simp, ⟨hlevel, he⟩, trivial⟩

/-- An expression is determined by the ones between which the connective stands. -/
theorem inj {e' : Expr} (h : Splits op e es) (h' : Splits op e' es) (he : e.WellFormed)
    (he' : e'.WellFormed) : e = e' := by
  obtain rfl | ⟨rfl, -⟩ := h <;> obtain rfl | ⟨hes, -⟩ := h'
  · rfl
  · obtain rfl := hes
    simp [WellFormed] at he
  · simp [WellFormed] at he'
  · exact (List.cons.inj hes).1

end Expr.Splits

theorem Connective.token_mem_continuations (op : Connective) :
    op.token ∈ op.level.continuations := by
  cases op <;> decide

theorem Connective.token_not_mem_continuations (op : Connective) :
    op.token ∉ op.itemLevel.continuations := by
  cases op <;> decide

theorem Ends.token_not_mem {r : List Token} (h : Ends op.level r) : op.token ∉ r.head? :=
  fun hmem => h _ hmem op.token_mem_continuations

/-- Expressions with a connective between them, or a lone one. -/
theorem Determined.chain (hsplits : e.Splits op es) (he : e.WellFormed)
    (h : ∀ x ∈ es, Determined op.itemLevel x) : Determined op.level e := by
  intro e' r r' hlevel hwf hr hr' heq
  obtain ⟨es', hsplits'⟩ := Expr.Splits.exists_of_level hlevel
  obtain ⟨hnil, -⟩ := hsplits.allWellFormed he
  obtain ⟨hnil', hes'⟩ := hsplits'.allWellFormed hwf
  rw [hsplits.tokens, hsplits'.tokens] at heq
  obtain ⟨rfl, hrr⟩ := separated_inj op.token_not_mem_continuations hnil hnil' h hes'
    (hr.mono op.level_le) (hr'.mono op.level_le) hr.token_not_mem hr'.token_not_mem heq
  exact ⟨hsplits.inj hsplits' he hwf, hrr⟩

theorem Determined.lone (op : Connective) (hlevel : op.itemLevel ≤ e.level) (he : e.WellFormed)
    (h : Determined op.itemLevel e) : Determined op.level e :=
  Determined.chain (.inr ⟨rfl, hlevel⟩) he fun x hx => by
    obtain rfl := List.mem_singleton.1 hx
    exact h

/-- An expression that is determined at its own level is determined at every level that binds
less. -/
theorem Determined.of_level (h : Determined e.level e) (he : e.WellFormed) {l : Level}
    (hl : l ≤ e.level) : Determined l e := by
  have hpredicate : .predicate ≤ e.level → Determined .predicate e := by
    intro hlevel
    obtain heq | hnext := Level.eq_or_next_le hlevel
    · rwa [heq]
    · exact .predicate_of_operand hnext he (Level.operand_le hnext ▸ h)
  have hnot : .not ≤ e.level → Determined .not e := by
    intro hlevel
    obtain heq | hnext := Level.eq_or_next_le hlevel
    · rwa [heq]
    · exact .not_of_predicate hnext he (hpredicate hnext)
  have hand : .and ≤ e.level → Determined .and e := by
    intro hlevel
    obtain heq | hnext := Level.eq_or_next_le hlevel
    · rwa [heq]
    · exact .lone .and hnext he (hnot hnext)
  have hor : .or ≤ e.level → Determined .or e := by
    intro hlevel
    obtain heq | hnext := Level.eq_or_next_le hlevel
    · rwa [heq]
    · exact .lone .or hnext he (hand hnext)
  cases l with
  | or => exact hor hl
  | and => exact hand hl
  | not => exact hnot hl
  | predicate => exact hpredicate hl
  | operand => exact Level.operand_le hl ▸ h

end Levels

/-! ### Queries -/

section Queries

variable {joins : List Joined}

/-- The tokens of joins say where they end and which they are. -/
def Joined.Determined (joins : List Joined) : Prop :=
  ∀ joins' r r', Joined.AllWellFormed joins' →
    Joined.allTokens joins ++ .keyword "WHERE" :: r =
      Joined.allTokens joins' ++ .keyword "WHERE" :: r' → joins = joins' ∧ r = r'

theorem Joined.determined_nil : Joined.Determined [] := by
  intro joins' r r' _ heq
  cases joins' with
  | nil => exact ⟨rfl, (List.cons.inj heq).2⟩
  | cons join' joins' =>
    obtain ⟨table', aliasName', on'⟩ := join'
    simp [Joined.allTokens] at heq

theorem ends_joins (joins : List Joined) (r : List Token) :
    Ends .or (Joined.allTokens joins ++ .keyword "WHERE" :: r) := by
  cases joins with
  | nil => exact ends_cons.2 (by decide)
  | cons join joins =>
    obtain ⟨table, aliasName, on⟩ := join
    exact ends_cons.2 (by decide)

theorem Joined.Determined.cons (h : Joined.Determined joins) {on : Expr}
    (hon : Sql.Determined .or on) (table aliasName : String) :
    Joined.Determined (⟨table, aliasName, on⟩ :: joins) := by
  intro joins' r r' hwf heq
  cases joins' with
  | nil => simp [Joined.allTokens] at heq
  | cons join' joins' =>
    obtain ⟨table', aliasName', on'⟩ := join'
    obtain ⟨hon', hjoins'⟩ := hwf
    simp only [Joined.allTokens, List.cons_append, List.append_assoc, List.cons.injEq,
      Token.name.injEq, true_and] at heq
    obtain ⟨rfl, rfl, heq⟩ := heq
    obtain ⟨rfl, hrest⟩ := hon on' _ _ (Level.or_le _) hon' (ends_joins joins r)
      (ends_joins joins' r') heq
    obtain ⟨rfl, hr⟩ := h joins' r r' hjoins' hrest
    exact ⟨rfl, hr⟩

theorem Query.determined_mk {selected condition : Expr} (hselected : Sql.Determined .or selected)
    (hjoins : Joined.Determined joins) (hcondition : Sql.Determined .or condition)
    (table aliasName : String) :
    Query.Determined ⟨selected, table, aliasName, joins, condition⟩ := by
  intro q' r r' hwf hr hr' heq
  obtain ⟨selected', table', aliasName', joins', condition'⟩ := q'
  obtain ⟨hselected', hjoins', hcondition'⟩ := hwf
  have hends : ∀ r, Ends .or (Token.keyword "FROM" :: r) := fun r => ends_cons.2 (by decide)
  simp only [Query.tokens, List.cons_append, List.append_assoc, List.cons.injEq, true_and] at heq
  obtain ⟨rfl, hrest⟩ := hselected selected' _ _ (Level.or_le _) hselected' (hends _) (hends _) heq
  simp only [List.cons.injEq, Token.name.injEq, true_and] at hrest
  obtain ⟨rfl, rfl, hrest⟩ := hrest
  obtain ⟨rfl, htokens⟩ := hjoins joins' _ _ hjoins' hrest
  obtain ⟨rfl, hrr⟩ := hcondition condition' r r' (Level.or_le _) hcondition' hr hr' htokens
  exact ⟨rfl, hrr⟩

end Queries

/-! ## All trees -/

mutual

/-- The tokens of a well-formed expression say where it ends and which it is. -/
theorem Expr.determined : ∀ e : Expr, e.WellFormed → Determined e.level e
  | .column table column, _ => .column table column
  | .marker, _ => .marker
  | .number digits, _ => .number digits
  | .text text, _ => .text text
  | .call function argument, hargument =>
    .call (.of_level (argument.determined hargument) hargument (Level.or_le _)) hargument function
  | .callRows function, _ => .callRows function
  | .group inner, hinner =>
    .group (.of_level (inner.determined hinner) hinner (Level.or_le _)) hinner
  | .value query, hquery => .value (query.determined hquery)
  | .test operand predicate, ⟨hlevel, hoperand, hpredicate⟩ =>
    .test hlevel hoperand (.of_level (operand.determined hoperand) hoperand hlevel)
      (predicate.determined hpredicate)
  | .hasRows query, hquery => (query.determined hquery).hasRows
  | .not inner, ⟨hlevel, hinner⟩ => .not (.of_level (inner.determined hinner) hinner hlevel)
  | .chain _ items, he => .chain (.inl rfl) he (Expr.allDetermined items he.2)

theorem Predicate.determined : ∀ p : Predicate, p.WellFormed → p.Determined
  | .compare op right, ⟨hlevel, hright⟩ =>
    Predicate.determined_compare (.of_level (right.determined hright) hright hlevel) op
  | .is negated property, _ => Predicate.determined_is negated property
  | .between negated low high, ⟨⟨hlevel, hlow⟩, hlevel', hhigh⟩ =>
    Predicate.determined_between (.of_level (low.determined hlow) hlow hlevel)
      (.of_level (high.determined hhigh) hhigh hlevel') negated
  | .like negated ignoreCase pattern, ⟨hlevel, hpattern⟩ =>
    Predicate.determined_like (.of_level (pattern.determined hpattern) hpattern hlevel) negated
      ignoreCase
  | .likeEscaped negated ignoreCase pattern escape, ⟨⟨hlevel, hpattern⟩, hlevel', hescape⟩ =>
    Predicate.determined_likeEscaped (.of_level (pattern.determined hpattern) hpattern hlevel)
      (.of_level (escape.determined hescape) hescape hlevel') negated ignoreCase
  | .isIn negated items, ⟨hnil, hitems⟩ =>
    Predicate.determined_isIn hnil (Expr.allDetermined items hitems) negated

theorem Query.determined : ∀ q : Query, q.WellFormed → q.Determined
  | ⟨selected, table, aliasName, joins, condition⟩, ⟨hselected, hjoins, hcondition⟩ =>
    Query.determined_mk
      (.of_level (selected.determined hselected) hselected (Level.or_le _))
      (Joined.allDetermined joins hjoins)
      (.of_level (condition.determined hcondition) hcondition (Level.or_le _)) table aliasName

theorem Expr.allDetermined {l : Level} : ∀ es : List Expr, Expr.AllWellFormed l es →
    ∀ e ∈ es, Determined l e
  | [], _ => by simp
  | e :: es, ⟨⟨hlevel, he⟩, hes⟩ => List.forall_mem_cons.2
      ⟨.of_level (e.determined he) he hlevel, Expr.allDetermined es hes⟩

theorem Joined.allDetermined : ∀ js : List Joined, Joined.AllWellFormed js → Joined.Determined js
  | [], _ => Joined.determined_nil
  | ⟨table, aliasName, on⟩ :: js, ⟨hon, hjs⟩ =>
    (Joined.allDetermined js hjs).cons (.of_level (on.determined hon) hon (Level.or_le _)) table
      aliasName

end

/-- Well-formed expressions with the same tokens are the same. -/
theorem Expr.tokens_inj {e e' : Expr} (he : e.WellFormed) (he' : e'.WellFormed)
    (h : e.tokens = e'.tokens) : e = e' := by
  have hdetermined : Determined .or e := .of_level (e.determined he) he (Level.or_le _)
  refine (hdetermined e' [] [] (Level.or_le _) he' (ends_nil _) (ends_nil _) ?_).1
  rw [h]

/-- A text reads as one expression at most. -/
theorem Reads.unique {text : String} {e e' : Expr} (h : Reads text e) (h' : Reads text e') :
    e = e' :=
  Expr.tokens_inj h.1 h'.1 (h.2.symm.trans h'.2)

end FilterQuery.Sql
