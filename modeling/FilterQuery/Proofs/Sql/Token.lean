import FilterQuery.Condition.Tree

/-!
# Tokens of SQL

SQL is read in two steps, and the first cuts the text into tokens. Words are runs of letters,
digits, underscores and dollar signs that are as long as they can be; a word is a keyword, without
regard to case, or a number, a numbered marker or a name. `Scan` is the state between two
characters, and `lex` runs it over a text. A piece of text can be read on its own when it ends
where a token ends (`Closed`), and a word also when what follows does not go on with it (`Lexes`).
-/

namespace FilterQuery.Sql

/-! ## Tokens -/

/-- A token of SQL. -/
inductive Token where
  /-- A keyword, in capitals. -/
  | keyword (word : String)
  /-- A name. -/
  | name (name : String)
  /-- A number. -/
  | number (digits : String)
  /-- A text in quotes. -/
  | text (text : String)
  /-- The marker of a parameter, with or without its number. -/
  | marker
  /-- An operator or a punctuation mark. -/
  | symbol (symbol : String)
  /-- Characters that are no token. -/
  | unknown (characters : List Char)
deriving DecidableEq, Repr

/-- The words that have a place of their own in conditions and subqueries. -/
def keywords : List String :=
  ["SELECT", "FROM", "LEFT", "JOIN", "ON", "WHERE", "AND", "OR", "NOT", "IS", "NULL", "TRUE",
    "BETWEEN", "LIKE", "ILIKE", "ESCAPE", "IN", "EXISTS"]

/-- The keyword that a word is, without regard to case. -/
def keyword? (word : List Char) : Option String :=
  keywords.find? fun k => k.toList = word.map Char.toUpper

/-- The characters of words. -/
def isWordChar (c : Char) : Bool :=
  c.isAlphanum || c = '_' || c = '$'

/-- The token that a word is. -/
def Token.ofWord : List Char → Token
  | '$' :: digits =>
    if digits ≠ [] ∧ digits.all Char.isDigit then .marker else .unknown ('$' :: digits)
  | word =>
    if word.all Char.isDigit then .number (String.ofList word)
    else
      match keyword? word with
      | some k => .keyword k
      | none => .name (String.ofList word)

/-! ## Reading tokens -/

/-- What has been read of the next token. -/
inductive Scan where
  /-- Nothing. -/
  | start
  /-- The beginning of a word. -/
  | word (read : List Char)
  /-- The sign `<`. -/
  | less
  /-- The sign `>`. -/
  | greater
  /-- A quote and the beginning of a text. -/
  | text (read : List Char)
  /-- A text with its second quote, unless this is the first of two that stand for one. -/
  | quote (read : List Char)

namespace Scan

/-- Reads the first character of a token, or a blank. -/
def first (c : Char) : List Token × Scan :=
  if c.isWhitespace then ([], .start)
  else if isWordChar c then ([], .word [c])
  else
    match c with
    | '<' => ([], .less)
    | '>' => ([], .greater)
    | '\'' => ([], .text [])
    | '?' => ([.marker], .start)
    | '=' => ([.symbol "="], .start)
    | '(' => ([.symbol "("], .start)
    | ')' => ([.symbol ")"], .start)
    | ',' => ([.symbol ","], .start)
    | '.' => ([.symbol "."], .start)
    | '*' => ([.symbol "*"], .start)
    | c => ([.unknown [c]], .start)

/-- Reads the first character after a token. -/
def after (t : Token) (c : Char) : List Token × Scan :=
  (t :: (first c).1, (first c).2)

/-- Reads a character. -/
def next : Scan → Char → List Token × Scan
  | .start, c => first c
  | .word read, c => if isWordChar c then ([], .word (read ++ [c])) else after (.ofWord read) c
  | .less, '=' => ([.symbol "<="], .start)
  | .less, '>' => ([.symbol "<>"], .start)
  | .less, c => after (.symbol "<") c
  | .greater, '=' => ([.symbol ">="], .start)
  | .greater, c => after (.symbol ">") c
  | .text read, '\'' => ([], .quote read)
  | .text read, c => ([], .text (read ++ [c]))
  | .quote read, '\'' => ([], .text (read ++ ['\'']))
  | .quote read, c => after (.text (String.ofList read)) c

/-- The tokens that are left at the end of the text. -/
def rest : Scan → List Token
  | .start => []
  | .word read => [.ofWord read]
  | .less => [.symbol "<"]
  | .greater => [.symbol ">"]
  | .text read => [.unknown ('\'' :: read)]
  | .quote read => [.text (String.ofList read)]

/-- The tokens of a text. -/
def lex : Scan → List Char → List Token
  | s, [] => s.rest
  | s, c :: cs => (s.next c).1 ++ lex (s.next c).2 cs

end Scan

/-- The tokens of a text. -/
def lex (cs : List Char) : List Token :=
  Scan.start.lex cs

/-! ## Pieces of text -/

/-- A character that goes on neither with a word nor with a text. -/
def isBreak (c : Char) : Bool :=
  !isWordChar c && c ≠ '\''

/-- What goes on neither with a word nor with a text, because it is empty or by its first
character. -/
def Stops (rest : List Char) : Prop :=
  rest.head?.all isBreak = true

/-- A text whose first character goes on neither with a word nor with a text. -/
def Breaks (text : String) : Prop :=
  text.toList.head?.any isBreak = true

instance (text : String) : Decidable (Breaks text) :=
  inferInstanceAs (Decidable (_ = true))

/-- A text that has its tokens, whatever stands after it. -/
def Closed (text : String) (ts : List Token) : Prop :=
  ∀ rest, lex (text.toList ++ rest) = ts ++ lex rest

/-- A text that has its tokens when what stands after it does not go on with its last word. -/
def Lexes (text : String) (ts : List Token) : Prop :=
  ∀ rest, Stops rest → lex (text.toList ++ rest) = ts ++ lex rest

section Pieces

variable {a b : String} {ts us : List Token}

theorem Breaks.stops (h : Breaks a) (rest : List Char) : Stops (a.toList ++ rest) := by
  rw [Breaks] at h
  rw [Stops]
  cases ha : a.toList with
  | nil => simp [ha] at h
  | cons c cs => simpa [ha] using h

theorem Breaks.append (h : Breaks a) (b : String) : Breaks (a ++ b) := by
  rw [Breaks] at h ⊢
  rw [String.toList_append]
  cases ha : a.toList with
  | nil => simp [ha] at h
  | cons c cs => simpa [ha] using h

theorem Closed.lexes (h : Closed a ts) : Lexes a ts :=
  fun rest _ => h rest

theorem Closed.append (ha : Closed a ts) (hb : Closed b us) : Closed (a ++ b) (ts ++ us) := by
  intro rest
  rw [String.toList_append, List.append_assoc, ha, hb, List.append_assoc]

theorem Closed.append_lexes (ha : Closed a ts) (hb : Lexes b us) : Lexes (a ++ b) (ts ++ us) := by
  intro rest hrest
  rw [String.toList_append, List.append_assoc, ha, hb rest hrest, List.append_assoc]

/-- A text is closed by one that does not go on with its last word. -/
theorem Lexes.append_closed (ha : Lexes a ts) (hbreaks : Breaks b) (hb : Closed b us) :
    Closed (a ++ b) (ts ++ us) := by
  intro rest
  rw [String.toList_append, List.append_assoc, ha _ (hbreaks.stops rest), hb, List.append_assoc]

theorem Lexes.append (ha : Lexes a ts) (hbreaks : Breaks b) (hb : Lexes b us) :
    Lexes (a ++ b) (ts ++ us) := by
  intro rest hrest
  rw [String.toList_append, List.append_assoc, ha _ (hbreaks.stops rest), hb rest hrest,
    List.append_assoc]

/-- The tokens of a whole text. -/
theorem Lexes.lex_eq (h : Lexes a ts) : lex a.toList = ts := by
  have hend := h [] rfl
  rwa [List.append_nil, show lex [] = [] from rfl, List.append_nil] at hend

end Pieces

/-! ## Words -/

variable {w : List Char}

/-- What stops a token that can end here ends it. -/
theorem lex_stop {s : Scan} {t : Token} (hend : s.rest = [t])
    (hnext : ∀ c, isWordChar c = false → c ≠ '\'' → s.next c = Scan.after t c)
    {rest : List Char} (hrest : Stops rest) : s.lex rest = t :: lex rest := by
  cases rest with
  | nil => exact hend
  | cons c cs =>
    obtain ⟨hword, hquote⟩ : isWordChar c = false ∧ c ≠ '\'' := by
      simpa [Stops, isBreak] using hrest
    rw [Scan.lex, hnext c hword hquote]
    rfl

/-- A word goes on as long as it can. -/
theorem lex_word (hw : ∀ c ∈ w, isWordChar c = true) (read : List Char) {rest : List Char}
    (hrest : Stops rest) :
    (Scan.word read).lex (w ++ rest) = .ofWord (read ++ w) :: lex rest := by
  induction w generalizing read with
  | nil =>
    rw [List.nil_append, List.append_nil]
    refine lex_stop rfl (fun c hc _ => ?_) hrest
    rw [Scan.next, hc]
    rfl
  | cons c w ih =>
    rw [List.forall_mem_cons] at hw
    simp only [List.cons_append, Scan.lex, Scan.next, hw.1, if_true, List.nil_append, ih hw.2,
      List.append_assoc]

theorem not_isWhitespace_of_isWordChar {c : Char} (h : isWordChar c = true) :
    c.isWhitespace = false := by
  cases hblank : c.isWhitespace with
  | false => rfl
  | true =>
    simp only [Char.isWhitespace, Bool.or_eq_true, decide_eq_true_eq] at hblank
    rcases hblank with ((rfl | rfl) | rfl) | rfl <;> revert h <;> decide

/-- A text of characters of words is one word. -/
theorem lexes_word {s : String} (hne : s.toList ≠ [])
    (hword : s.toList.all isWordChar = true) : Lexes s [.ofWord s.toList] := by
  intro rest hrest
  cases hs : s.toList with
  | nil => exact absurd hs hne
  | cons c w =>
    rw [hs, List.all_eq_true, List.forall_mem_cons] at hword
    obtain ⟨hc, hw⟩ := hword
    have hblank := not_isWhitespace_of_isWordChar hc
    simp only [List.cons_append, lex, Scan.lex, Scan.next, Scan.first, hblank, hc, if_true,
      Bool.false_eq_true, if_false, List.nil_append]
    exact lex_word hw [c] hrest

/-- A plain name: letters, digits and underscores, of which the first is not a digit, that are no
keyword. -/
def IsName (s : String) : Prop :=
  s.toList.head?.any (fun c => c.isAlpha || c = '_') = true ∧
    s.toList.all (fun c => c.isAlphanum || c = '_') = true ∧ keyword? s.toList = none

instance (s : String) : Decidable (IsName s) :=
  inferInstanceAs (Decidable (_ ∧ _))

theorem not_isDigit_of_isAlpha {c : Char} (h : c.isAlpha = true) : c.isDigit = false := by
  delta Char.isAlpha Char.isUpper Char.isLower at h
  simp only [Bool.or_eq_true, Bool.and_eq_true, decide_eq_true_eq, UInt32.le_iff_toNat_le,
    ge_iff_le] at h
  simp only [Char.isDigit, Bool.and_eq_false_iff, decide_eq_false_iff_not,
    UInt32.le_iff_toNat_le, ge_iff_le]
  have hlow : '0'.val.toNat = 48 := rfl
  have hhigh : '9'.val.toNat = 57 := rfl
  have hupper : 'A'.val.toNat = 65 := rfl
  have hlower : 'a'.val.toNat = 97 := rfl
  omega

theorem IsName.lexes {s : String} (h : IsName s) : Lexes s [.name s] := by
  obtain ⟨hhead, hall, hkeyword⟩ := h
  cases hs : s.toList with
  | nil =>
    rw [hs] at hhead
    cases hhead
  | cons c cs =>
    rw [hs, List.head?_cons, Option.any_some, Bool.or_eq_true, decide_eq_true_eq] at hhead
    have hword : s.toList.all isWordChar = true := by
      rw [List.all_eq_true]
      intro d hd
      have hmem := List.all_eq_true.1 hall d hd
      rw [isWordChar, hmem, Bool.true_or]
    have hfirst : c ≠ '$' ∧ c.isDigit = false := by
      rcases hhead with halpha | rfl
      · refine ⟨?_, not_isDigit_of_isAlpha halpha⟩
        rintro rfl
        revert halpha
        decide
      · decide
    have hname : Token.ofWord s.toList = .name s := by
      rw [hs, Token.ofWord]
      · rw [hs] at hkeyword
        simp only [List.all_cons, hfirst.2, Bool.false_and, Bool.false_eq_true, if_false, hkeyword]
        rw [← hs, String.ofList_toList]
      · rintro digits hdigits
        exact hfirst.1 (List.cons.inj hdigits).1
    rw [← hname]
    exact lexes_word (by rw [hs]; simp) hword

/-- A numbered marker is a word. -/
theorem lexes_numbered {s : String} {digits : List Char} (hs : s.toList = '$' :: digits)
    (hne : digits ≠ []) (hdigits : ∀ c ∈ digits, c.isDigit = true) : Lexes s [.marker] := by
  have hmarker : Token.ofWord s.toList = .marker := by
    rw [hs, Token.ofWord, if_pos ⟨hne, List.all_eq_true.2 hdigits⟩]
  rw [← hmarker]
  refine lexes_word (by rw [hs]; simp) ?_
  rw [hs, List.all_eq_true]
  refine List.forall_mem_cons.2 ⟨by decide, fun c hc => ?_⟩
  rw [isWordChar, Char.isAlphanum, hdigits c hc, Bool.or_true, Bool.true_or, Bool.true_or]

/-! ## Texts -/

/-- A text goes on up to its second quote. -/
theorem lex_text (hw : '\'' ∉ w) (read : List Char) {rest : List Char} (hrest : Stops rest) :
    (Scan.text read).lex (w ++ '\'' :: rest) =
      .text (String.ofList (read ++ w)) :: lex rest := by
  induction w generalizing read with
  | nil =>
    rw [List.append_nil]
    show (Scan.quote read).lex rest = _
    refine lex_stop rfl (fun c _ hc => ?_) hrest
    rw [Scan.next]
    exact hc
  | cons c w ih =>
    rw [List.mem_cons, not_or] at hw
    have hnext : (Scan.text read).next c = ([], .text (read ++ [c])) := by
      rw [Scan.next]
      exact Ne.symm hw.1
    rw [List.cons_append, Scan.lex, hnext, List.nil_append, ih hw.2, List.append_assoc]
    rfl

/-- Characters in quotes are a text. -/
theorem lexes_quoted {s : String} (hs : s.toList = '\'' :: (w ++ ['\''])) (hw : '\'' ∉ w) :
    Lexes s [.text (String.ofList w)] := by
  intro rest hrest
  rw [hs, List.cons_append, List.append_assoc]
  exact lex_text hw [] hrest

end FilterQuery.Sql
