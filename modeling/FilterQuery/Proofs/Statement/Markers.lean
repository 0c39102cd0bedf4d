import FilterQuery.Statement.Fragment

/-!
# Markers and texts

A fragment is texts with values between them: `weave` puts a text in the place of each value, and
the SQL of a fragment is what its markers make of it (`Fragment.sql_eq_weave`). When no text of a
fragment holds a character that begins a marker (`Fragment.Tidy`), the markers can be counted in
the SQL (`Fragment.Tidy.count_sql`). A database reads the number of a marker to its last digit, so
the markers refer to the values in order when no text goes on the number before it
(`Fragment.Tidy.refersTo`), and numbered markers only then (`Fragment.Tidy.refersTo_iff`).
-/

namespace FilterQuery

/-- A text without a character that begins a marker in some dialect. -/
def Unmarked (s : String) : Prop :=
  '?' ∉ s.toList ∧ '$' ∉ s.toList

instance (s : String) : Decidable (Unmarked s) :=
  inferInstanceAs (Decidable (_ ∧ _))

theorem unmarked_empty : Unmarked "" := by
  decide

theorem Unmarked.append {s t : String} (hs : Unmarked s) (ht : Unmarked t) : Unmarked (s ++ t) := by
  rw [Unmarked, String.toList_append, List.mem_append, List.mem_append]
  exact ⟨not_or.2 ⟨hs.1, ht.1⟩, not_or.2 ⟨hs.2, ht.2⟩⟩

theorem unmarked_intercalate {separator : String} (hs : Unmarked separator) {ss : List String}
    (hss : ∀ s ∈ ss, Unmarked s) : Unmarked (separator.intercalate ss) := by
  match ss with
  | [] => exact unmarked_empty
  | [s] =>
    rw [String.intercalate_singleton]
    exact hss s List.mem_cons_self
  | s :: t :: ss =>
    have hrest := unmarked_intercalate hs fun u hu => hss u (List.mem_cons_of_mem s hu)
    rw [String.intercalate_cons_cons]
    exact ((hss s List.mem_cons_self).append hs).append hrest

theorem isDigit_of_mem_toDigits {n : Nat} {c : Char} (h : c ∈ Nat.toDigits 10 n) :
    c.isDigit = true :=
  Nat.isDigit_of_mem_toDigits (by omega) (by omega) h

theorem unmarked_toString (n : Nat) : Unmarked (toString n) := by
  rw [Unmarked, Nat.toString_eq_repr, Nat.toList_repr]
  refine ⟨fun h => ?_, fun h => ?_⟩
  · exact absurd (isDigit_of_mem_toDigits h) (by decide)
  · exact absurd (isDigit_of_mem_toDigits h) (by decide)

/-- The character with which the markers of a dialect begin. -/
def Dialect.markerChar : Dialect → Char
  | .sqlite => '?'
  | .postgres => '$'

theorem Unmarked.not_mem {s : String} (hs : Unmarked s) (d : Dialect) :
    d.markerChar ∉ s.toList := by
  cases d with
  | sqlite => exact hs.1
  | postgres => exact hs.2

/-- Texts with items between them: a first text, and a text after each item. -/
def weave (lead : String) : List String → List String → String
  | item :: items, text :: texts => lead ++ item ++ weave text items texts
  | _, _ => lead

theorem append_weave (s lead : String) (items texts : List String) :
    s ++ weave lead items texts = weave (s ++ lead) items texts := by
  cases items with
  | nil => rfl
  | cons item items =>
    cases texts with
    | nil => rfl
    | cons text texts => simp only [weave, String.append_assoc]

/-! ## Counting markers -/

theorem toList_numberedMarker (n : Nat) :
    (Dialect.postgres.marker n).toList = Dialect.postgres.markerChar :: Nat.toDigits 10 n := by
  simp [Dialect.marker, Nat.toString_eq_repr, Nat.toList_repr]
  rfl

theorem toList_bareMarker (n : Nat) :
    (Dialect.sqlite.marker n).toList = [Dialect.sqlite.markerChar] := by
  show "?".toList = ['?']
  decide

theorem markerChar_notMem_toDigits (n : Nat) :
    Dialect.postgres.markerChar ∉ Nat.toDigits 10 n :=
  fun hmem => absurd (isDigit_of_mem_toDigits hmem) (by decide)

theorem count_marker (d : Dialect) (n : Nat) : (d.marker n).toList.count d.markerChar = 1 := by
  cases d with
  | sqlite => rw [toList_bareMarker, List.count_singleton_self]
  | postgres =>
    rw [toList_numberedMarker, List.count_cons_self,
      List.count_eq_zero.2 (markerChar_notMem_toDigits n)]

/-- In unmarked texts there are as many beginnings of markers as there are markers between them. -/
theorem count_weave (d : Dialect) (numbers : List Nat) {lead : String} {texts : List String}
    (hlead : Unmarked lead) (htexts : ∀ t ∈ texts, Unmarked t)
    (hlength : texts.length = numbers.length) :
    (weave lead (numbers.map d.marker) texts).toList.count d.markerChar = numbers.length := by
  induction numbers generalizing lead texts with
  | nil =>
    rw [List.map_nil, weave]
    · exact List.count_eq_zero.2 (hlead.not_mem d)
    · simp
  | cons n ns ih =>
    cases texts with
    | nil => cases hlength
    | cons t ts =>
      have hrest := ih (htexts t List.mem_cons_self)
        (fun u hu => htexts u (List.mem_cons_of_mem _ hu)) (Nat.succ.inj hlength)
      rw [List.map_cons, weave, String.toList_append, String.toList_append, List.count_append,
        List.count_append, hrest, count_marker, List.count_eq_zero.2 (hlead.not_mem d),
        List.length_cons]
      omega

/-! ## Reading numbers -/

/-- The number of a marker with digits after it, when a number is the greatest before it. A marker
of SQLite may have no digits, and then it takes the next number. -/
def Dialect.markerNumber : Dialect → Nat → List Char → Nat
  | .sqlite, last, [] => last + 1
  | _, _, digits => Nat.ofDigitChars 10 digits 0

/-- The numbers of the values to which the markers in a text refer, each read to its last digit,
when a number is the greatest before the text. -/
def Dialect.markerNumbers (d : Dialect) : Nat → List Char → List Nat
  | _, [] => []
  | last, c :: cs =>
    if c = d.markerChar then
      let n := d.markerNumber last (cs.takeWhile Char.isDigit)
      n :: d.markerNumbers (max last n) cs
    else d.markerNumbers last cs

/-- A text that does not go on a number that stands before it. -/
def EndsNumber (s : String) : Prop :=
  s.toList.head?.all (fun c => !c.isDigit) = true

instance (s : String) : Decidable (EndsNumber s) :=
  inferInstanceAs (Decidable (_ = true))

theorem endsNumber_empty : EndsNumber "" := by
  decide

theorem EndsNumber.append {s : String} (h : EndsNumber s) (hs : s ≠ "") (t : String) :
    EndsNumber (s ++ t) := by
  rw [EndsNumber, String.toList_append]
  rw [EndsNumber] at h
  cases hlist : s.toList with
  | nil => exact absurd (String.toList_eq_nil_iff.1 hlist) hs
  | cons c cs =>
    rw [hlist] at h
    exact h

/-- Whether a text goes on a number depends on a text appended to it only where it is empty. -/
theorem endsNumber_append_congr {s t u : String} (h : EndsNumber t ↔ EndsNumber u) :
    EndsNumber (s ++ t) ↔ EndsNumber (s ++ u) := by
  rw [EndsNumber, EndsNumber, String.toList_append, String.toList_append]
  cases s.toList with
  | nil => exact h
  | cons c cs => exact Iff.rfl

theorem endsNumber_append_iff {s t : String} (h : EndsNumber t) :
    EndsNumber (s ++ t) ↔ EndsNumber s := by
  rw [endsNumber_append_congr (iff_of_true h endsNumber_empty), String.append_empty]

theorem endsNumber_marker (d : Dialect) (n : Nat) (t : String) : EndsNumber (d.marker n ++ t) := by
  rw [EndsNumber, String.toList_append]
  cases d with
  | sqlite =>
    rw [toList_bareMarker]
    rfl
  | postgres =>
    rw [toList_numberedMarker]
    rfl

/-- Woven texts go on a number exactly when the first of them does, since no marker does. -/
theorem endsNumber_weave (d : Dialect) (numbers : List Nat) (lead : String) (texts : List String) :
    EndsNumber (weave lead (numbers.map d.marker) texts) ↔ EndsNumber lead := by
  cases numbers with
  | nil => rfl
  | cons n ns =>
    cases texts with
    | nil => rfl
    | cons t ts =>
      rw [List.map_cons, weave, String.append_assoc]
      exact endsNumber_append_iff (endsNumber_marker d n _)

section Reading

variable {d : Dialect} {n last : Nat} {rest : List Char}

theorem takeWhile_isDigit_eq_nil :
    rest.takeWhile Char.isDigit = [] ↔ rest.head?.all (fun c => !c.isDigit) = true := by
  cases rest with
  | nil => simp
  | cons c cs => simp [List.takeWhile_cons]

theorem markerNumbers_append {cs : List Char} (h : d.markerChar ∉ cs) :
    d.markerNumbers last (cs ++ rest) = d.markerNumbers last rest := by
  induction cs with
  | nil => rfl
  | cons c cs ih =>
    rw [List.mem_cons, not_or] at h
    rw [List.cons_append, Dialect.markerNumbers, if_neg (Ne.symm h.1), ih h.2]

theorem markerNumbers_markerChar {cs : List Char} :
    d.markerNumbers last (d.markerChar :: cs) =
      d.markerNumber last (cs.takeWhile Char.isDigit) ::
        d.markerNumbers (max last (d.markerNumber last (cs.takeWhile Char.isDigit))) cs := by
  rw [Dialect.markerNumbers, if_pos rfl]

/-- The number of a numbered marker is read on into the digits that follow it. -/
theorem markerNumbers_numberedMarker :
    Dialect.postgres.markerNumbers last ((Dialect.postgres.marker n).toList ++ rest) =
      Nat.ofDigitChars 10 (rest.takeWhile Char.isDigit) n ::
        Dialect.postgres.markerNumbers
          (max last (Nat.ofDigitChars 10 (rest.takeWhile Char.isDigit) n)) rest := by
  have hnumber : Dialect.postgres.markerNumber last
      ((Nat.toDigits 10 n ++ rest).takeWhile Char.isDigit) =
        Nat.ofDigitChars 10 (rest.takeWhile Char.isDigit) n := by
    rw [List.takeWhile_append_of_pos fun c hc => isDigit_of_mem_toDigits hc, Dialect.markerNumber,
      Nat.ofDigitChars_append, Nat.ofDigitChars_ten_toDigits]
    simp
  rw [toList_numberedMarker, List.cons_append, markerNumbers_markerChar, hnumber,
    markerNumbers_append (markerChar_notMem_toDigits n)]

/-- The marker of the next value refers to it, when what follows ends its number. -/
theorem markerNumbers_marker (hrest : rest.head?.all (fun c => !c.isDigit) = true) :
    d.markerNumbers n ((d.marker (n + 1)).toList ++ rest) =
      (n + 1) :: d.markerNumbers (n + 1) rest := by
  have htake := takeWhile_isDigit_eq_nil.2 hrest
  have hmax : max n (n + 1) = n + 1 := by omega
  cases d with
  | sqlite =>
    rw [toList_bareMarker, List.singleton_append, markerNumbers_markerChar, htake,
      Dialect.markerNumber, hmax]
  | postgres => rw [markerNumbers_numberedMarker, htake, Nat.ofDigitChars_nil, hmax]

theorem le_ofDigitChars (n : Nat) (cs : List Char) : n ≤ Nat.ofDigitChars 10 cs n := by
  induction cs generalizing n with
  | nil => exact Nat.le_refl n
  | cons c cs ih =>
    have hrest := ih (10 * n + (c.toNat - '0'.toNat))
    rw [Nat.ofDigitChars_cons]
    omega

/-- Digits behind a number make it another. -/
theorem ofDigitChars_eq_self_iff (hn : 0 < n) {cs : List Char} :
    Nat.ofDigitChars 10 cs n = n ↔ cs = [] := by
  cases cs with
  | nil => simp
  | cons c cs =>
    have hle := le_ofDigitChars (10 * n + (c.toNat - '0'.toNat)) cs
    rw [Nat.ofDigitChars_cons]
    exact iff_of_false (by omega) (List.cons_ne_nil c cs)

end Reading

section Weaving

variable {start count : Nat} {lead : String} {texts : List String}

/-- In unmarked texts that end the numbers before them, the markers between them refer to the values
in order. -/
theorem markerNumbers_weave (d : Dialect) (hlead : Unmarked lead) (htexts : ∀ t ∈ texts, Unmarked t)
    (hends : ∀ t ∈ texts, EndsNumber t) (hlength : texts.length = count) :
    d.markerNumbers start
      (weave lead ((List.range' (start + 1) count).map d.marker) texts).toList =
        List.range' (start + 1) count := by
  induction count generalizing start lead texts with
  | zero =>
    have hnone : d.markerNumbers start (lead.toList ++ []) = [] :=
      markerNumbers_append (hlead.not_mem d)
    simpa [weave] using hnone
  | succ count ih =>
    cases texts with
    | nil => cases hlength
    | cons t ts =>
      rw [List.forall_mem_cons] at htexts hends
      have hrest : d.markerNumbers (start + 1)
          (weave t ((List.range' (start + 1 + 1) count).map d.marker) ts).toList =
            List.range' (start + 1 + 1) count :=
        ih htexts.1 htexts.2 hends.2 (Nat.succ.inj hlength)
      have hfollows := (endsNumber_weave d (List.range' (start + 1 + 1) count) t ts).2 hends.1
      rw [List.range'_succ, List.map_cons, weave, String.toList_append, String.toList_append,
        List.append_assoc, markerNumbers_append (hlead.not_mem d), markerNumbers_marker hfollows,
        hrest]

/-- Numbered markers in unmarked texts refer to the values in order only if the texts end the
numbers before them. -/
theorem endsNumber_of_markerNumbers_weave (hlead : Unmarked lead)
    (htexts : ∀ t ∈ texts, Unmarked t) (hlength : texts.length = count)
    (hread : Dialect.postgres.markerNumbers start
      (weave lead ((List.range' (start + 1) count).map Dialect.postgres.marker) texts).toList =
        List.range' (start + 1) count) : ∀ t ∈ texts, EndsNumber t := by
  induction count generalizing start lead texts with
  | zero =>
    rw [List.length_eq_zero_iff.1 hlength]
    simp
  | succ count ih =>
    cases texts with
    | nil => cases hlength
    | cons t ts =>
      rw [List.forall_mem_cons] at htexts
      rw [List.range'_succ, List.map_cons, weave, String.toList_append, String.toList_append,
        List.append_assoc, markerNumbers_append hlead.2, markerNumbers_numberedMarker] at hread
      -- a number that is read on into further digits is another number
      obtain ⟨hnumber, hrest⟩ := List.cons.inj hread
      have hfollows : EndsNumber (weave t
          ((List.range' (start + 1 + 1) count).map Dialect.postgres.marker) ts) :=
        takeWhile_isDigit_eq_nil.1 ((ofDigitChars_eq_self_iff (Nat.succ_pos start)).1 hnumber)
      have hmax : max start (start + 1) = start + 1 := by omega
      rw [hnumber, hmax] at hrest
      exact List.forall_mem_cons.2 ⟨(endsNumber_weave _ _ _ _).1 hfollows,
        ih htexts.1 htexts.2 (Nat.succ.inj hlength) hrest⟩

end Weaving

/-! ## The texts of a fragment -/

namespace Fragment

/-- The text of a fragment before its first value. -/
def lead : Fragment → String
  | [] => ""
  | .text s :: ps => s ++ lead ps
  | .value _ :: _ => ""

/-- The texts of a fragment after each of its values. -/
def after : Fragment → List String
  | [] => []
  | .text _ :: ps => after ps
  | .value _ :: ps => lead ps :: after ps

/-- A fragment with its values written out. -/
def written (write : Parameter → String) : Fragment → String
  | [] => ""
  | .text s :: ps => s ++ written write ps
  | .value v :: ps => write v ++ written write ps

theorem written_append (write : Parameter → String) (a b : Fragment) :
    written write (a ++ b) = written write a ++ written write b := by
  induction a with
  | nil => simp [written]
  | cons p ps ih => cases p <;> simp [written, ih, String.append_assoc]

theorem length_after (f : Fragment) : f.after.length = f.parameters.length := by
  induction f with
  | nil => rfl
  | cons p ps ih => cases p <;> simp [after, parameters, ih]

/-- The SQL of a fragment has markers between its texts, numbered on from the values before it. -/
theorem sql_eq_weave (d : Dialect) (start : Nat) (f : Fragment) :
    sql d start f =
      weave f.lead ((List.range' (start + 1) f.parameters.length).map d.marker) f.after := by
  induction f generalizing start with
  | nil => rfl
  | cons p ps ih =>
    cases p with
    | text s => rw [sql, ih, append_weave, lead, after, parameters]
    | value v =>
      rw [sql, ih, lead, after, parameters, List.length_cons, List.range'_succ, List.map_cons,
        weave, String.empty_append]

/-- A fragment with its values written out has them between its texts. -/
theorem written_eq_weave (write : Parameter → String) (f : Fragment) :
    written write f = weave f.lead (f.parameters.map write) f.after := by
  induction f with
  | nil => rfl
  | cons p ps ih =>
    cases p with
    | text s => rw [written, ih, append_weave, lead, after, parameters]
    | value v =>
      rw [written, ih, lead, after, parameters, List.map_cons, weave, String.empty_append]

/-! ## Tidy fragments -/

variable {strict : Prop} {a b : Fragment} {s : String}

/-- A fragment whose texts are unmarked; when it is strict, they end the numbers before them. -/
def Tidy (strict : Prop) : Fragment → Prop
  | [] => True
  | .text s :: ps => Unmarked s ∧ Tidy strict ps
  | .value _ :: ps => (strict → EndsNumber (lead ps)) ∧ Tidy strict ps

theorem tidy_nil : Tidy strict [] :=
  trivial

theorem tidy_ofText (hs : Unmarked s) : Tidy strict (ofText s) :=
  ⟨hs, trivial⟩

theorem tidy_ofValue (v : Parameter) : Tidy strict (ofValue v) :=
  ⟨fun _ => endsNumber_empty, trivial⟩

theorem lead_ofText (s : String) : lead (ofText s) = s := by
  simp [ofText, lead]

theorem endsNumber_lead_append_iff (hb : EndsNumber (lead b)) :
    EndsNumber (lead (a ++ b)) ↔ EndsNumber (lead a) := by
  induction a with
  | nil => exact iff_of_true hb endsNumber_empty
  | cons p ps ih =>
    cases p with
    | text s => exact endsNumber_append_congr ih
    | value v => exact Iff.rfl

/-- A fragment may be appended when it does not go on a number before it. -/
theorem tidy_append_iff (hb : EndsNumber (lead b)) :
    Tidy strict (a ++ b) ↔ Tidy strict a ∧ Tidy strict b := by
  induction a with
  | nil => exact (and_iff_right tidy_nil).symm
  | cons p ps ih =>
    cases p with
    | text s => rw [List.cons_append, Tidy, Tidy, ih, and_assoc]
    | value v =>
      rw [List.cons_append, Tidy, Tidy, ih, endsNumber_lead_append_iff hb, and_assoc]

theorem tidy_text_append_iff (hs : Unmarked s) : Tidy strict (ofText s ++ a) ↔ Tidy strict a :=
  and_iff_right hs

theorem tidy_append_text_iff (hs : Unmarked s) (hends : EndsNumber s) :
    Tidy strict (a ++ ofText s) ↔ Tidy strict a := by
  have hlead : EndsNumber (lead (ofText s)) := by rwa [lead_ofText]
  rw [tidy_append_iff hlead]
  exact and_iff_left (tidy_ofText hs)

theorem tidy_append_value_iff (v : Parameter) : Tidy strict (a ++ ofValue v) ↔ Tidy strict a := by
  have hlead : EndsNumber (lead (ofValue v)) := endsNumber_empty
  rw [tidy_append_iff hlead]
  exact and_iff_left (tidy_ofValue v)

theorem Tidy.lead (h : Tidy strict a) : Unmarked (lead a) := by
  induction a with
  | nil => exact unmarked_empty
  | cons p ps ih =>
    cases p with
    | text s => exact h.1.append (ih h.2)
    | value v => exact unmarked_empty

theorem Tidy.after (h : Tidy strict a) : ∀ t ∈ after a, Unmarked t := by
  induction a with
  | nil => simp [Fragment.after]
  | cons p ps ih =>
    cases p with
    | text s => exact ih h.2
    | value v => exact List.forall_mem_cons.2 ⟨h.2.lead, ih h.2⟩

/-- A tidy fragment is strictly tidy when its texts after values end the numbers before them. -/
theorem Tidy.strict_iff (h : Tidy strict a) :
    Tidy True a ↔ ∀ t ∈ Fragment.after a, EndsNumber t := by
  induction a with
  | nil => exact iff_of_true trivial (by simp [Fragment.after])
  | cons p ps ih =>
    cases p with
    | text s => exact (and_iff_right h.1).trans (ih h.2)
    | value v =>
      rw [Tidy, ih h.2, Fragment.after, List.forall_mem_cons]
      exact and_congr_left' ⟨fun hends => hends trivial, fun hends _ => hends⟩

/-- The SQL of a tidy fragment has as many beginnings of markers as the fragment has values. -/
theorem Tidy.count_sql (h : Tidy strict a) (d : Dialect) (start : Nat) :
    (sql d start a).toList.count d.markerChar = a.parameters.length := by
  rw [sql_eq_weave, count_weave d _ h.lead h.after, List.length_range']
  rw [length_after, List.length_range']

end Fragment

/-! ## Lining up -/

/-- SQL whose markers line up with values, after a number of values that come before: there are
unmarked texts with the markers between them, numbered on in order, and where a marker stands, the
value with its number stands when the values are written out. -/
structure LinesUp (d : Dialect) (start : Nat) (values : List Parameter) (sql : String)
    (written : (Parameter → String) → String) : Prop where
  split : ∃ lead texts, texts.length = values.length ∧ (∀ t ∈ lead :: texts, Unmarked t) ∧
    sql = weave lead ((List.range' (start + 1) values.length).map d.marker) texts ∧
    ∀ write, written write = weave lead (values.map write) texts
  count : sql.toList.count d.markerChar = values.length

/-- SQL whose markers refer to values in order, after a number of values that come before. -/
def RefersTo (d : Dialect) (start : Nat) (values : List Parameter) (sql : String) : Prop :=
  d.markerNumbers start sql.toList = List.range' (start + 1) values.length

namespace Fragment

variable {strict : Prop} {f : Fragment}

theorem Tidy.linesUp (h : Tidy strict f) (d : Dialect) (start : Nat) :
    LinesUp d start f.parameters (sql d start f) fun write => written write f where
  split := ⟨Fragment.lead f, Fragment.after f, length_after f,
    List.forall_mem_cons.2 ⟨h.lead, h.after⟩, sql_eq_weave d start f,
    fun write => written_eq_weave write f⟩
  count := h.count_sql d start

/-- The markers of a strictly tidy fragment refer to its values. -/
theorem Tidy.refersTo (h : Tidy True f) (d : Dialect) (start : Nat) :
    RefersTo d start f.parameters (sql d start f) := by
  rw [RefersTo, sql_eq_weave]
  exact markerNumbers_weave d h.lead h.after (h.strict_iff.1 h) (length_after f)

/-- Numbered markers of a tidy fragment refer to its values only if it is strictly tidy. -/
theorem Tidy.refersTo_iff (h : Tidy strict f) (start : Nat) :
    RefersTo .postgres start f.parameters (sql .postgres start f) ↔ Tidy True f := by
  refine ⟨fun hread => ?_, fun htidy => htidy.refersTo .postgres start⟩
  rw [RefersTo, sql_eq_weave] at hread
  exact h.strict_iff.2 (endsNumber_of_markerNumbers_weave h.lead h.after (length_after f) hread)

end Fragment

end FilterQuery
