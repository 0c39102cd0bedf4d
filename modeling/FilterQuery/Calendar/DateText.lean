import FilterQuery.Calendar.Instant
import FilterQuery.Text.Blank

/-!
# Dates and times as text

Writing an instant: `Instant.stored`, with whole seconds, is the form of text columns, and
`Instant.text` keeps the fraction. Both are in UTC and end in `Z`; years from 0 to 9999 have four
digits, others a sign and at least four.

Reading one, `Instant.ofText?` tries four forms in turn, after trimming blanks:

* the strict form with an offset, `2024-01-15T10:30:00.5+05:00`, whose fields have fixed widths;
* the same without an offset, taken as UTC, with `T` or blanks between date and time;
* a date alone, taken as its midnight.

The forms without an offset let blanks stand before every number, and numbers may be short.
-/

namespace FilterQuery

namespace Instant

/-! ## Writing -/

/-- The decimal digit of a number below ten. -/
def digitChar (n : Nat) : Char :=
  Char.ofNat ('0'.toNat + n)

/-- The last `width` decimal digits of a number. -/
def padded : Nat → Nat → List Char
  | 0, _ => []
  | width + 1, n => padded width (n / 10) ++ [digitChar (n % 10)]

/-- A number with at least `width` digits. -/
def atLeast (width n : Nat) : List Char :=
  let digits := Nat.toDigits 10 n
  List.replicate (width - digits.length) '0' ++ digits

/-- A year: four digits from 0 to 9999, otherwise a sign and at least four digits. -/
def yearText (year : Int) : List Char :=
  if 0 ≤ year && year ≤ 9999 then padded 4 year.toNat
  else (if year < 0 then '-' else '+') :: atLeast 4 year.natAbs

/-- The date of an instant. -/
def dateText (t : Instant) : List Char :=
  let d := t.date
  yearText d.year ++ '-' :: padded 2 d.month ++ '-' :: padded 2 d.day

/-- Hours, minutes and seconds; a leap second is second 60. -/
def timeText (t : Instant) : List Char :=
  let s := t.secondOfDay
  padded 2 (s / 3600) ++ ':' :: padded 2 (s / 60 % 60) ++
    ':' :: padded 2 (s % 60 + if t.isLeapSecond then 1 else 0)

/-- The fraction of a second in three, six or nine digits, the fewest that lose nothing; none for
a whole second. -/
def fractionText (t : Instant) : List Char :=
  let n := t.nanos % nanosPerSecond
  if n = 0 then []
  else if n % 1000000 = 0 then '.' :: padded 3 (n / 1000000)
  else if n % 1000 = 0 then '.' :: padded 6 (n / 1000)
  else '.' :: padded 9 n

/-- An instant in the form of text columns, in whole seconds. -/
def stored (t : Instant) : String :=
  String.ofList (t.dateText ++ 'T' :: t.timeText ++ ['Z'])

/-- An instant with its fraction. -/
def text (t : Instant) : String :=
  String.ofList (t.dateText ++ 'T' :: t.timeText ++ t.fractionText ++ ['Z'])

/-! ## Reading numbers -/

/-- Whether a character is an ASCII digit. -/
def isDigit (c : Char) : Bool :=
  '0' ≤ c && c ≤ '9'

/-- At most `most` leading digits of a text, and what follows them. -/
def leadingDigits : Nat → List Char → List Char × List Char
  | 0, s => ([], s)
  | _ + 1, [] => ([], [])
  | most + 1, c :: cs =>
    if isDigit c then
      let (ds, rest) := leadingDigits most cs
      (c :: ds, rest)
    else ([], c :: cs)

/-- The number that digits denote, going on from a number already read. -/
def numberFrom (n : Nat) (digits : List Char) : Nat :=
  digits.foldl (fun n c => n * 10 + (c.toNat - '0'.toNat)) n

/-- Reads a number of at least `least` and at most `most` digits. -/
def readNumber (least most : Nat) (s : List Char) : Option (Nat × List Char) :=
  let (digits, rest) := leadingDigits most s
  if digits.length < least then none else some (numberFrom 0 digits, rest)

/-- Reads the digits after a fraction's point as nanoseconds; digits after the ninth are dropped. -/
def readNanos (s : List Char) : Option (Nat × List Char) :=
  let (digits, rest) := leadingDigits 9 s
  if digits.isEmpty then none
  else some (numberFrom 0 digits * Nat.pow 10 (9 - digits.length), rest.dropWhile isDigit)

/-- Reads an optional fraction of a second. -/
def readFraction (s : List Char) : Option (Nat × List Char) :=
  match s with
  | '.' :: cs => readNanos cs
  | cs => some (0, cs)

/-- The instant of a date and a time of day, when both exist. Second 60 is a leap second. -/
def ofFields? (year : Int) (month day hour minute second nanos : Nat) : Option Instant :=
  match Date.dayNumber? year month day with
  | none => none
  | some dayNumber =>
    if 23 < hour || 59 < minute || 60 < second then none
    else if second = 60 then
      some (ofDayTime dayNumber (hour * 3600 + minute * 60 + 59) (nanos + nanosPerSecond))
    else some (ofDayTime dayNumber (hour * 3600 + minute * 60 + second) nanos)

/-! ## The form with an offset -/

/-- Reads the offset of a local time from UTC, in seconds: `Z`, or a sign, two digits of hours, a
colon and two digits of minutes. -/
def readOffset (s : List Char) : Option (Int × List Char) :=
  match s with
  | 'Z' :: rest => some (0, rest)
  | 'z' :: rest => some (0, rest)
  | '+' :: rest => magnitude rest
  | '-' :: rest => (magnitude rest).map fun (n, rest) => (-n, rest)
  | '\u2212' :: rest => (magnitude rest).map fun (n, rest) => (-n, rest)
  | _ => none
where
  /-- Reads hours and minutes, at most 23:59. -/
  magnitude (s : List Char) : Option (Int × List Char) := do
    let (hours, s) ← readNumber 2 2 s
    let s ← Text.afterHead [':'] s
    let (minutes, s) ← readNumber 2 2 s
    if 23 < hours || 59 < minutes then none else some (hours * 3600 + minutes * 60, s)

/-- Reads the separator of date and time in the form with an offset. -/
def readSeparator (s : List Char) : Option (List Char) :=
  match s with
  | 'T' :: rest => some rest
  | 't' :: rest => some rest
  | ' ' :: rest => some rest
  | _ => none

/-- Reads an instant with an offset, in fields of fixed width. -/
def ofOffsetText? (s : List Char) : Option Instant := do
  let (year, s) ← readNumber 4 4 s
  let s ← Text.afterHead ['-'] s
  let (month, s) ← readNumber 2 2 s
  let s ← Text.afterHead ['-'] s
  let (day, s) ← readNumber 2 2 s
  let s ← readSeparator s
  let (hour, s) ← readNumber 2 2 s
  let s ← Text.afterHead [':'] s
  let (minute, s) ← readNumber 2 2 s
  let s ← Text.afterHead [':'] s
  let (second, s) ← readNumber 2 2 s
  let (nanos, s) ← readFraction s
  let (offset, s) ← readOffset s
  if !s.isEmpty then none
  else
    let moment ← ofFields? year month day hour minute second nanos
    let shifted : Instant := ⟨moment.seconds - offset, moment.nanos⟩
    if shifted.inRange then some shifted else none

/-! ## The forms without an offset -/

/-- Reads a number of at most `most` digits after any blanks. -/
def readLooseNumber (most : Nat) (s : List Char) : Option (Nat × List Char) :=
  readNumber 1 most (Text.trimStart s)

/-- Reads a year after any blanks: up to four digits, or a sign and any number of digits. -/
def readLooseYear (s : List Char) : Option (Int × List Char) :=
  match Text.trimStart s with
  | '-' :: rest => (readNumber 1 rest.length rest).map fun (n, rest) => (-(n : Int), rest)
  | '+' :: rest => (readNumber 1 rest.length rest).map fun (n, rest) => ((n : Int), rest)
  | rest => (readNumber 1 4 rest).map fun (n, rest) => ((n : Int), rest)

/-- Reads a date in the loose form. -/
def readLooseDate (s : List Char) : Option ((Int × Nat × Nat) × List Char) := do
  let (year, s) ← readLooseYear s
  let s ← Text.afterHead ['-'] s
  let (month, s) ← readLooseNumber 2 s
  let s ← Text.afterHead ['-'] s
  let (day, s) ← readLooseNumber 2 s
  some ((year, month, day), s)

/-- Reads a time of day in the loose form: hour, minute, second and nanoseconds. -/
def readLooseTime (s : List Char) : Option ((Nat × Nat × Nat × Nat) × List Char) := do
  let (hour, s) ← readLooseNumber 2 s
  let s ← Text.afterHead [':'] s
  let (minute, s) ← readLooseNumber 2 s
  let s ← Text.afterHead [':'] s
  let (second, s) ← readLooseNumber 2 s
  let (nanos, s) ← readFraction s
  some ((hour, minute, second, nanos), s)

/-- Reads a date and time without an offset, whose separator a given reader passes over. -/
def ofLooseText? (separator : List Char → Option (List Char)) (s : List Char) :
    Option Instant := do
  let ((year, month, day), s) ← readLooseDate s
  let s ← separator s
  let ((hour, minute, second, nanos), s) ← readLooseTime s
  if s.isEmpty then ofFields? year month day hour minute second nanos else none

/-- Reads a date alone as its midnight. -/
def ofDateText? (s : List Char) : Option Instant := do
  let ((year, month, day), s) ← readLooseDate s
  if s.isEmpty then (Date.dayNumber? year month day).map midnight else none

/-- Reads an instant from characters without blanks at either end. -/
def ofTrimmed? (s : List Char) : Option Instant :=
  (ofOffsetText? s).orElse fun _ =>
    (ofLooseText? (Text.afterHead ['T']) s).orElse fun _ =>
      (ofLooseText? (fun s => some (Text.trimStart s)) s).orElse fun _ => ofDateText? s

/-- Reads an instant in any of its forms. -/
def ofText? (s : String) : Option Instant :=
  ofTrimmed? (Text.trim s.toList)

end Instant

end FilterQuery
