import FilterQuery.Proofs.Calendar.Periods
import FilterQuery.Proofs.Calendar.Spelling

/-!
# The order of stored instants

Instants are compared as the text that columns hold, byte by byte. All fields of this text have
fixed widths but the year, so instants of the years that are written with four digits are ordered
by their text as by time (`Instant.stored_lt_iff`), and with them those of the year before year
zero, whose sign comes before all digits. No other year fits in: a plus sign comes before all digits
too, and behind a minus sign the numbers of years run against time
(`Instant.sortsAlike_iff`).
-/

namespace FilterQuery

/-! ## Bytes of texts -/

namespace Text

/-- The bytes of characters in UTF-8. -/
def encoded (s : List Char) : List UInt8 :=
  s.flatMap String.utf8EncodeChar

/-- The bytes of a text in UTF-8. -/
def bytes (s : String) : List UInt8 :=
  s.toUTF8.data.toList

variable {s t : List Char}

theorem bytes_ofList (s : List Char) : bytes (String.ofList s) = encoded s := by
  simp [bytes, encoded, String.toUTF8, List.utf8Encode]

theorem encoded_cons (c : Char) (s : List Char) :
    encoded (c :: s) = String.utf8EncodeChar c ++ encoded s := rfl

/-- A first character that is the same does not decide. -/
theorem encoded_cons_lt_iff (c : Char) :
    encoded (c :: s) < encoded (c :: t) ↔ encoded s < encoded t := by
  rw [encoded_cons, encoded_cons]
  induction String.utf8EncodeChar c with
  | nil => rfl
  | cons byte bytes ih => simp [ih]

end Text

namespace Instant

open Text

variable {s t : List Char}

/-! ## Bytes of numbers -/

theorem encoded_digitChar_cons {d : Nat} (h : d < 10) (s : List Char) :
    encoded (digitChar d :: s) = UInt8.ofNat (48 + d) :: encoded s := by
  have hall : ∀ d < 10, String.utf8EncodeChar (digitChar d) = [UInt8.ofNat (48 + d)] := by decide
  rw [encoded_cons, hall d h]
  rfl

/-- Different digits decide. -/
theorem encoded_digits_lt_iff {d e : Nat} (hd : d < 10) (he : e < 10) :
    encoded (digitChar d :: s) < encoded (digitChar e :: t) ↔
      d < e ∨ d = e ∧ encoded s < encoded t := by
  have hall : ∀ d < 10, ∀ e < 10, (UInt8.ofNat (48 + d) < UInt8.ofNat (48 + e) ↔ d < e) ∧
      (UInt8.ofNat (48 + d) = UInt8.ofNat (48 + e) ↔ d = e) := by decide
  obtain ⟨hlt, heq⟩ := hall d hd e he
  rw [encoded_digitChar_cons hd, encoded_digitChar_cons he, List.cons_lt_cons_iff, hlt, heq]

/-- Different numbers of a fixed width decide, and as their digits go. -/
theorem encoded_padded_lt_iff {width m n : Nat} (hm : m < 10 ^ width) (hn : n < 10 ^ width) :
    encoded (padded width m ++ s) < encoded (padded width n ++ t) ↔
      m < n ∨ m = n ∧ encoded s < encoded t := by
  induction width generalizing m n s t with
  | zero =>
    rw [Nat.pow_zero, Nat.lt_one_iff] at hm hn
    simp [hm, hn, padded]
  | succ width ih =>
    rw [Nat.pow_succ] at hm hn
    rw [padded, padded, List.append_assoc, List.append_assoc, List.singleton_append,
      List.singleton_append, ih (by omega) (by omega),
      encoded_digits_lt_iff (Nat.mod_lt m (by decide)) (Nat.mod_lt n (by decide))]
    by_cases hrest : encoded s < encoded t
    · simp only [hrest, and_true]
      omega
    · simp only [hrest, and_false, or_false]
      omega

/-- Signs come before all digits. -/
theorem encoded_sign_lt {sign : Char} (h : sign = '+' ∨ sign = '-') (width n : Nat) :
    encoded (sign :: s) < encoded (padded (width + 1) n ++ t) ∧
      ¬encoded (padded (width + 1) n ++ t) < encoded (sign :: s) := by
  obtain ⟨d, ds, hd, hpadded⟩ := padded_succ_eq_cons width n
  have hbyte : ∃ byte, (∀ d < 10, byte < UInt8.ofNat (48 + d) ∧ ¬UInt8.ofNat (48 + d) < byte ∧
      UInt8.ofNat (48 + d) ≠ byte) ∧ encoded (sign :: s) = byte :: encoded s := by
    rcases h with rfl | rfl
    · exact ⟨43, by decide, rfl⟩
    · exact ⟨45, by decide, rfl⟩
  obtain ⟨byte, hall, hsign⟩ := hbyte
  obtain ⟨hlt, hnot, hne⟩ := hall d hd
  rw [hpadded, List.cons_append, hsign, encoded_digitChar_cons hd, List.cons_lt_cons_iff,
    List.cons_lt_cons_iff]
  refine ⟨.inl hlt, ?_⟩
  rintro (hgt | ⟨heq, -⟩)
  · exact hnot hgt
  · exact hne heq

/-! ## Years -/

/-- An instant in a year that text puts where it belongs: one that is written with four digits, or
the year before these. -/
def HasSortingYear (t : Instant) : Prop :=
  -1 ≤ t.date.year ∧ t.date.year ≤ 9999

instance (t : Instant) : Decidable t.HasSortingYear :=
  inferInstanceAs (Decidable (_ ∧ _))

theorem yearText_of_digits {year : Int} (h : 0 ≤ year) (h' : year ≤ 9999) :
    yearText year = padded 4 year.toNat := by
  rw [yearText, if_pos (by simp [h, h'])]

/-- Different years decide. -/
theorem encoded_yearText_lt_iff {x y : Int} (hx : -1 ≤ x) (hx' : x ≤ 9999) (hy : -1 ≤ y)
    (hy' : y ≤ 9999) :
    encoded (yearText x ++ s) < encoded (yearText y ++ t) ↔
      x < y ∨ x = y ∧ encoded s < encoded t := by
  have hsigned : ∀ rest, yearText (-1) ++ rest = '-' :: (padded 4 1 ++ rest) := fun _ => rfl
  obtain rfl | hx : x = -1 ∨ 0 ≤ x := by omega
  · obtain rfl | hy : y = -1 ∨ 0 ≤ y := by omega
    · rw [hsigned, hsigned, encoded_cons_lt_iff, encoded_padded_lt_iff (by decide) (by decide)]
      simp
    · have hlt := (encoded_sign_lt (.inr rfl) 3 y.toNat (s := padded 4 1 ++ s) (t := t)).1
      rw [hsigned, yearText_of_digits hy hy']
      exact iff_of_true hlt (.inl (by omega))
  · rw [yearText_of_digits hx hx']
    obtain rfl | hy : y = -1 ∨ 0 ≤ y := by omega
    · have hnot := (encoded_sign_lt (.inr rfl) 3 x.toNat (s := padded 4 1 ++ t) (t := s)).2
      rw [hsigned]
      exact iff_of_false hnot (by omega)
    · rw [yearText_of_digits hy hy', encoded_padded_lt_iff (by omega) (by omega)]
      have hlt : x.toNat < y.toNat ↔ x < y := by omega
      have heq : x.toNat = y.toNat ↔ x = y := by omega
      rw [hlt, heq]

/-! ## The order of time -/

variable {a b : Instant}

/-- Days are ordered by their years, months and days. -/
theorem dayNumber_lt_iff (a b : Instant) :
    a.dayNumber < b.dayNumber ↔
      a.date.year < b.date.year ∨ a.date.year = b.date.year ∧
        (a.date.month < b.date.month ∨ a.date.month = b.date.month ∧ a.date.day < b.date.day) := by
  obtain ⟨hlow, hhigh, -, -⟩ := (Date.isValid_iff _).1 (Date.isValid_ofDayNumber a.dayNumber)
  obtain ⟨hlow', hhigh', -, -⟩ := (Date.isValid_iff _).1 (Date.isValid_ofDayNumber b.dayNumber)
  have hday := Period.first_month_number a.dayNumber
  have hday' := Period.first_month_number b.dayNumber
  obtain ⟨hstart, hend⟩ := Period.month.first_number a.dayNumber
  obtain ⟨hstart', hend'⟩ := Period.month.first_number b.dayNumber
  have hbefore := Period.month.first_lt_first_iff (i := Period.month.number b.dayNumber)
    (j := Period.month.number a.dayNumber + 1)
  have hafter := Period.month.first_lt_first_iff (i := Period.month.number a.dayNumber)
    (j := Period.month.number b.dayNumber + 1)
  rcases Int.lt_trichotomy (Period.month.number a.dayNumber) (Period.month.number b.dayNumber) with
    hlt | heq | hgt
  · simp only [Period.number, date] at *
    omega
  · rw [heq] at hday
    simp only [Period.number, date] at *
    omega
  · simp only [Period.number, date] at *
    omega

/-- Seconds are ordered by their days, hours, minutes and seconds as a clock shows them. -/
theorem wholeSecond_lt_iff (ha : a.WellFormed) (hb : b.WellFormed) :
    a.wholeSecond < b.wholeSecond ↔
      a.dayNumber < b.dayNumber ∨ a.dayNumber = b.dayNumber ∧
        (a.secondOfDay / 3600 < b.secondOfDay / 3600 ∨
          a.secondOfDay / 3600 = b.secondOfDay / 3600 ∧
            (a.secondOfDay / 60 % 60 < b.secondOfDay / 60 % 60 ∨
              a.secondOfDay / 60 % 60 = b.secondOfDay / 60 % 60 ∧
                a.shownSecond < b.shownSecond)) := by
  have hend := ha.leap
  have hend' := hb.leap
  simp only [lt_iff, wholeSecond, shownSecond, dayNumber, secondOfDay, secondsPerDay] at *
  cases hleap : a.isLeapSecond <;> cases hleap' : b.isLeapSecond <;>
    simp only [hleap, hleap', nanosPerSecond, forall_const, if_true, Bool.false_eq_true, if_false]
      at * <;> omega

theorem wholeSecond_lt_of_dayNumber_lt (h : a.dayNumber < b.dayNumber) :
    a.wholeSecond < b.wholeSecond := by
  simp only [lt_iff, wholeSecond, dayNumber, secondsPerDay] at *
  omega

/-- What is stored begins with the year. -/
theorem bytes_stored (t : Instant) :
    bytes t.stored = encoded (yearText t.date.year ++ '-' :: (padded 2 t.date.month ++
      '-' :: (padded 2 t.date.day ++ 'T' :: (t.timeText ++ ['Z'])))) := by
  simp only [stored, bytes_ofList, dateText, List.append_assoc, List.cons_append]

/-- Instants in years that sort are ordered by their text as by their seconds. -/
theorem stored_lt_iff (ha : a.WellFormed) (hb : b.WellFormed) (hyear : a.HasSortingYear)
    (hyear' : b.HasSortingYear) :
    bytes a.stored < bytes b.stored ↔ a.wholeSecond < b.wholeSecond := by
  have hday := dayNumber_lt_iff a b
  have hday' := dayNumber_lt_iff b a
  rw [wholeSecond_lt_iff ha hb, bytes_stored, bytes_stored,
    encoded_yearText_lt_iff hyear.1 hyear.2 hyear'.1 hyear'.2, encoded_cons_lt_iff,
    encoded_padded_lt_iff a.month_lt b.month_lt, encoded_cons_lt_iff,
    encoded_padded_lt_iff a.day_lt b.day_lt, encoded_cons_lt_iff, timeText_append, timeText_append,
    encoded_padded_lt_iff a.hour_lt b.hour_lt, encoded_cons_lt_iff,
    encoded_padded_lt_iff a.minute_lt b.minute_lt, encoded_cons_lt_iff,
    encoded_padded_lt_iff a.second_lt b.second_lt]
  have hirrefl : ¬encoded ['Z'] < encoded ['Z'] := List.lt_irrefl _
  simp only [hirrefl, and_false, or_false]
  omega

/-! ## Instants that texts denote -/

/-- A fraction of a second is less than a second. -/
theorem lt_of_readFraction {nanos : Nat} {rest : List Char}
    (h : readFraction s = some (nanos, rest)) : nanos < nanosPerSecond := by
  unfold readFraction at h
  split at h
  · rename_i digits
    obtain ⟨hdigits, hlength⟩ := leadingDigits_spec 9 digits
    simp only [readNanos] at h
    split at h
    · cases h
    · cases h
      have hlt := Nat.mul_lt_mul_of_pos_right (numberFrom_lt hdigits)
        (Nat.pow_pos (n := 9 - (leadingDigits 9 digits).1.length) (by decide : 0 < 10))
      rwa [← Nat.pow_add, Nat.add_sub_cancel' hlength] at hlt
  · cases h
    decide

/-- An offset is one of whole minutes. -/
theorem emod_of_magnitude {offset : Int} {rest : List Char}
    (h : readOffset.magnitude s = some (offset, rest)) : offset % 60 = 0 := by
  simp only [readOffset.magnitude, Option.bind_eq_bind, Option.bind_eq_some_iff] at h
  obtain ⟨⟨hours, _⟩, -, _, -, ⟨minutes, _⟩, -, h⟩ := h
  split at h
  · cases h
  · cases h
    omega

theorem emod_of_readOffset {offset : Int} {rest : List Char}
    (h : readOffset s = some (offset, rest)) : offset % 60 = 0 := by
  have hbehind : ∀ {s : List Char}, (readOffset.magnitude s).map (fun read => (-read.1, read.2)) =
      some (offset, rest) → offset % 60 = 0 := by
    intro s h
    obtain ⟨⟨n, _⟩, hread, hsome⟩ := Option.map_eq_some_iff.1 h
    cases hsome
    have hn := emod_of_magnitude hread
    omega
  unfold readOffset at h
  split at h
  · cases h
    rfl
  · cases h
    rfl
  · exact emod_of_magnitude h
  · exact hbehind h
  · exact hbehind h
  · cases h

theorem wellFormed_midnight (n : Int) : (midnight n).WellFormed :=
  ⟨(by decide : 0 < 2 * nanosPerSecond), fun h => by cases h⟩

/-- Second 60 is the only one whose nanoseconds are those of a leap second. -/
theorem wellFormed_ofFields? {year : Int} {month day hour minute second nanos : Nat} {t : Instant}
    (hnanos : nanos < nanosPerSecond)
    (h : ofFields? year month day hour minute second nanos = some t) : t.WellFormed := by
  unfold ofFields? at h
  split at h
  · cases h
  · split at h
    · cases h
    · split at h
      · cases h
        refine ⟨?_, fun _ => ?_⟩
        · simp only [ofDayTime]
          omega
        · simp only [ofDayTime, secondsPerDay]
          omega
      · cases h
        refine ⟨?_, fun hleap => ?_⟩
        · simp only [ofDayTime]
          omega
        · rw [isLeapSecond, decide_eq_true_eq] at hleap
          exact absurd hnanos (Nat.not_lt.2 hleap)

/-- A shift by whole minutes leaves a leap second at the end of one. -/
theorem wellFormed_ofOffsetText? {t : Instant} (h : ofOffsetText? s = some t) : t.WellFormed := by
  unfold ofOffsetText? at h
  -- Of the eleven steps before the fraction none matters.
  iterate 11 obtain ⟨_, -, h⟩ := Option.bind_eq_some_iff.1 h
  obtain ⟨⟨nanos, _⟩, hfraction, h⟩ := Option.bind_eq_some_iff.1 h
  obtain ⟨⟨offset, _⟩, hoffset, h⟩ := Option.bind_eq_some_iff.1 h
  have hminutes := emod_of_readOffset hoffset
  dsimp only at h
  split at h
  · cases h
  · obtain ⟨moment, hmoment, h⟩ := Option.bind_eq_some_iff.1 h
    have hwell := wellFormed_ofFields? (lt_of_readFraction hfraction) hmoment
    split at h
    · cases h
      refine ⟨hwell.nanos_lt, fun hleap => ?_⟩
      have hend := hwell.leap hleap
      simp only
      omega
    · cases h

theorem wellFormed_ofLooseText? {separator : List Char → Option (List Char)} {t : Instant}
    (h : ofLooseText? separator s = some t) : t.WellFormed := by
  simp only [ofLooseText?, Option.bind_eq_bind, Option.bind_eq_some_iff] at h
  obtain ⟨_, -, rest, -, ⟨⟨hour, minute, second, nanos⟩, after⟩, htime, h⟩ := h
  simp only [readLooseTime, Option.bind_eq_bind, Option.bind_eq_some_iff] at htime
  obtain ⟨_, -, _, -, _, -, _, -, _, -, ⟨nanos', rest'⟩, hfraction, htime⟩ := htime
  cases htime
  split at h
  · exact wellFormed_ofFields? (lt_of_readFraction hfraction) h
  · cases h

theorem wellFormed_ofDateText? {t : Instant} (h : ofDateText? s = some t) : t.WellFormed := by
  simp only [ofDateText?, Option.bind_eq_bind, Option.bind_eq_some_iff] at h
  obtain ⟨_, -, h⟩ := h
  split at h
  · obtain ⟨n, -, rfl⟩ := Option.map_eq_some_iff.1 h
    exact wellFormed_midnight n
  · cases h

/-- Texts denote instants that a clock can show. -/
theorem wellFormed_ofText? {text : String} {t : Instant} (h : ofText? text = some t) :
    t.WellFormed := by
  simp only [ofText?, ofTrimmed?, Option.orElse_eq_or, Option.or_eq_some_iff] at h
  rcases h with hoffset | ⟨-, hletter | ⟨-, hblank | ⟨-, hdate⟩⟩⟩
  · exact wellFormed_ofOffsetText? hoffset
  · exact wellFormed_ofLooseText? hletter
  · exact wellFormed_ofLooseText? hblank
  · exact wellFormed_ofDateText? hdate

/-! ## Years that do not fit in -/

/-- Of the years before year zero the last one comes first. -/
theorem encoded_lastSigned_lt {year : Int} (h : year < -1) :
    encoded (yearText (-1) ++ s) < encoded (yearText year ++ t) := by
  have hsigned : yearText year = '-' :: atLeast 4 year.natAbs := by
    rw [yearText, if_neg (by simp; omega), if_pos (by omega)]
  have hlast : yearText (-1) ++ s = '-' :: (padded 4 1 ++ s) := rfl
  rw [hsigned, hlast, List.cons_append, encoded_cons_lt_iff]
  by_cases hfour : year.natAbs < 10 ^ 4
  · rw [atLeast_eq_padded hfour, encoded_padded_lt_iff (by decide) hfour]
    exact .inl (by omega)
  · obtain ⟨d, ds, hpos, hd, hdigits⟩ := toDigits_eq_cons (n := year.natAbs) (by omega)
    have hlong := Nat.length_toDigits_le_iff (b := 10) (n := year.natAbs) (k := 4) (by decide)
      (by decide)
    have hnumber : atLeast 4 year.natAbs = digitChar d :: ds := by
      rw [atLeast, Nat.sub_eq_zero_of_le (by omega), hdigits]
      rfl
    have hzero : padded 4 1 ++ s = digitChar 0 :: (padded 3 1 ++ s) := rfl
    rw [hnumber, hzero, List.cons_append, encoded_digits_lt_iff (by decide) hd]
    exact .inl hpos

/-- A year that needs five digits comes before those that are written with four. -/
theorem encoded_yearText_lt_of_five {x y : Int} (hx : 9999 < x) (hy : 0 ≤ y) (hy' : y ≤ 9999) :
    encoded (yearText x ++ s) < encoded (yearText y ++ t) := by
  have hsigned : yearText x = '+' :: atLeast 4 x.natAbs := by
    rw [yearText, if_neg (by simp; omega), if_neg (by omega)]
  rw [hsigned, yearText_of_digits hy hy']
  exact (encoded_sign_lt (.inl rfl) 3 y.toNat).1

/-! ## Text and time -/

/-- Two instants come in the same order by their text as by their seconds, and they have the same
text if they have the same second. -/
def SortsAlike (a b : Instant) : Prop :=
  (bytes a.stored < bytes b.stored ↔ a.wholeSecond < b.wholeSecond) ∧
    (bytes a.stored = bytes b.stored ↔ a.wholeSecond = b.wholeSecond) ∧
      (bytes b.stored < bytes a.stored ↔ b.wholeSecond < a.wholeSecond)

/-- Fractions of a second are not stored. -/
theorem stored_wholeSecond (t : Instant) : t.wholeSecond.stored = t.stored := by
  have hleap : t.wholeSecond.isLeapSecond = t.isLeapSecond := by
    rw [wholeSecond, isLeapSecond]
    cases t.isLeapSecond <;> rfl
  have htime : t.wholeSecond.timeText = t.timeText := by
    rw [timeText, hleap]
    rfl
  rw [stored, htime]
  rfl

theorem lt_asymm (h : a < b) : ¬b < a := by
  rw [lt_iff] at h ⊢
  omega

theorem eq_of_not_lt (h : ¬a < b) (h' : ¬b < a) : a = b := by
  rw [lt_iff] at h h'
  rw [Instant.mk.injEq]
  omega

/-- Instants in years that sort come in the same order by their text as by their seconds. -/
theorem sortsAlike (ha : a.WellFormed) (hb : b.WellFormed) (hyear : a.HasSortingYear)
    (hyear' : b.HasSortingYear) : SortsAlike a b := by
  have hlt := stored_lt_iff ha hb hyear hyear'
  have hgt := stored_lt_iff hb ha hyear' hyear
  refine ⟨hlt, ⟨fun heq => ?_, fun heq => ?_⟩, hgt⟩
  · have hirrefl : ¬bytes b.stored < bytes b.stored := List.lt_irrefl _
    rw [heq] at hlt hgt
    exact eq_of_not_lt (fun h => hirrefl (hlt.2 h)) (fun h => hirrefl (hgt.2 h))
  · rw [← stored_wholeSecond a, heq, stored_wholeSecond]

theorem SortsAlike.symm (h : SortsAlike a b) : SortsAlike b a := by
  obtain ⟨hlt, heq, hgt⟩ := h
  exact ⟨hgt, eq_comm.trans (heq.trans eq_comm), hlt⟩

/-- The text of an earlier year has to come first. -/
theorem not_sortsAlike_of_year (hyear : a.date.year < b.date.year)
    (htext : ∀ s t, encoded (yearText b.date.year ++ s) < encoded (yearText a.date.year ++ t)) :
    ¬SortsAlike a b := by
  rintro ⟨-, -, hgt⟩
  have hstored : bytes b.stored < bytes a.stored := by
    rw [bytes_stored, bytes_stored]
    exact htext _ _
  have hday := (dayNumber_lt_iff a b).2 (.inl hyear)
  exact lt_asymm (hgt.1 hstored) (wholeSecond_lt_of_dayNumber_lt hday)

/-- An instant in a year that does not sort is put on the wrong side of an instant in one that
does. -/
theorem exists_not_sortsAlike (h : ¬a.HasSortingYear) :
    ∃ text b, ofText? text = some b ∧ b.HasSortingYear ∧ ¬SortsAlike a b := by
  have hcase : a.date.year < -1 ∨ 9999 < a.date.year := by
    simp only [HasSortingYear] at h
    omega
  rcases hcase with hearly | hlate
  · have hyear : (date ⟨-62198755200, 0⟩).year = -1 := by decide +kernel
    refine ⟨"-0001-01-01", ⟨-62198755200, 0⟩, by decide +kernel, by decide +kernel,
      not_sortsAlike_of_year ?_ fun s t => ?_⟩
    · rwa [hyear]
    · rw [hyear]
      exact encoded_lastSigned_lt hearly
  · have hyear : (date ⟨1705276800, 0⟩).year = 2024 := by decide +kernel
    refine ⟨"2024-01-15", ⟨1705276800, 0⟩, by decide +kernel, by decide +kernel,
      fun halike => not_sortsAlike_of_year ?_ (fun s t => ?_) halike.symm⟩
    · rw [hyear]
      omega
    · rw [hyear]
      exact encoded_yearText_lt_of_five hlate (by decide) (by decide)

/-- Stored text is ordered like time in the years that sort, and in no others: an instant that a
text denotes comes in the same order by its stored text as by time with all such instants of these
years exactly if its own year is one of them. -/
theorem sortsAlike_iff {text : String} (h : ofText? text = some a) :
    (∀ text' b, ofText? text' = some b → b.HasSortingYear → SortsAlike a b) ↔
      a.HasSortingYear := by
  constructor
  · intro hall
    by_contra hyear
    obtain ⟨text', b, hread, hyear', hnot⟩ := exists_not_sortsAlike hyear
    exact hnot (hall text' b hread hyear')
  · intro hyear text' b hread hyear'
    exact sortsAlike (wellFormed_ofText? h) (wellFormed_ofText? hread) hyear hyear'

/-- A leap second, written with an offset, comes before the midnight behind it. -/
theorem sortsAlike_iff_leapSecond :
    ofText? "2017-01-01T01:59:60.5+02:00" = some ⟨1483228799, 1500000000⟩ ∧
      HasSortingYear ⟨1483228799, 1500000000⟩ ∧
      (∀ text b, ofText? text = some b → b.HasSortingYear →
        SortsAlike ⟨1483228799, 1500000000⟩ b) ∧
      bytes "2016-12-31T23:59:60Z" < bytes "2017-01-01T00:00:00Z" := by
  have hread : ofText? "2017-01-01T01:59:60.5+02:00" = some ⟨1483228799, 1500000000⟩ := by
    decide +kernel
  have hyear : HasSortingYear ⟨1483228799, 1500000000⟩ := by decide +kernel
  have hall := (sortsAlike_iff hread).2 hyear
  have hnext := hall "2017-01-01" ⟨1483228800, 0⟩ (by decide +kernel) (by decide +kernel)
  exact ⟨hread, hyear, hall, hnext.1.2 (by decide)⟩

/-- Text does not order all instants that texts denote as time does: the year ten thousand begins
with a plus sign, which comes before all digits. -/
theorem not_sortsAlike :
    ¬∀ text text' a b, ofText? text = some a → ofText? text' = some b → SortsAlike a b := by
  intro h
  have hyears := h "+10000-01-01" "2024-01-15" ⟨253402300800, 0⟩ ⟨1705276800, 0⟩
    (by decide +kernel) (by decide +kernel)
  exact absurd (hyears.1.1 (by decide +kernel)) (by decide)

end Instant

end FilterQuery
