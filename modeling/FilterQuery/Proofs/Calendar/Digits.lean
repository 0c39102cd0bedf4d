import Mathlib.Algebra.Order.Ring.Nat
import Mathlib.Tactic.Ring
import FilterQuery.Calendar.DateText

/-!
# Decimal digits

Numbers of a fixed width are read back from what is written (`Instant.readNumber_padded`), whatever
follows them. A fraction of a second is read back from every decimal text that denotes it exactly
(`Instant.readFraction_of_writes`), however many digits this has.
-/

namespace FilterQuery.Instant

/-! ## Single digits -/

theorem isDigit_iff (c : Char) : isDigit c = true ↔ 48 ≤ c.toNat ∧ c.toNat ≤ 57 := by
  rw [isDigit, Bool.and_eq_true, decide_eq_true_eq, decide_eq_true_eq]
  exact Iff.rfl

theorem toNat_digitChar {n : Nat} (h : n < 10) : (digitChar n).toNat = 48 + n := by
  have hall : ∀ n < 10, (digitChar n).toNat = 48 + n := by decide
  exact hall n h

theorem isDigit_digitChar {n : Nat} (h : n < 10) : isDigit (digitChar n) = true := by
  rw [isDigit_iff, toNat_digitChar h]
  omega

theorem isBlank_of_isDigit {c : Char} (h : isDigit c = true) : Text.isBlank c = false := by
  rw [isDigit_iff] at h
  simp only [Text.isBlank, Bool.or_eq_false_iff, Bool.and_eq_false_iff, decide_eq_false_iff_not,
    beq_eq_false_iff_ne]
  omega

/-! ## Numbers that digits denote -/

/-- A text of digits. -/
def Digits (s : List Char) : Prop :=
  ∀ c ∈ s, isDigit c = true

instance : DecidablePred Digits :=
  fun _ => List.decidableBAll _ _

theorem numberFrom_append (n : Nat) (s t : List Char) :
    numberFrom n (s ++ t) = numberFrom (numberFrom n s) t := by
  rw [numberFrom, List.foldl_append]
  rfl

theorem numberFrom_concat (n : Nat) (s : List Char) {d : Nat} (h : d < 10) :
    numberFrom n (s ++ [digitChar d]) = numberFrom n s * 10 + d := by
  rw [numberFrom_append]
  show numberFrom n s * 10 + ((digitChar d).toNat - 48) = _
  rw [toNat_digitChar h, Nat.add_sub_cancel_left]

/-- Digits that follow others shift these by their number. -/
theorem numberFrom_eq (n : Nat) (s : List Char) :
    numberFrom n s = n * 10 ^ s.length + numberFrom 0 s := by
  induction s generalizing n with
  | nil => simp [numberFrom]
  | cons c cs ih =>
    have hstep : ∀ m, numberFrom m (c :: cs) = numberFrom (m * 10 + (c.toNat - 48)) cs :=
      fun _ => rfl
    rw [hstep, hstep, ih, ih (0 * 10 + (c.toNat - 48)), List.length_cons]
    ring

theorem numberFrom_lt {s : List Char} (h : Digits s) : numberFrom 0 s < 10 ^ s.length := by
  induction s with
  | nil => simp [numberFrom]
  | cons c cs ih =>
    have hc := (isDigit_iff c).1 (h c List.mem_cons_self)
    have hcs := ih fun d hd => h d (List.mem_cons_of_mem _ hd)
    have hstep : numberFrom 0 (c :: cs) = numberFrom (0 * 10 + (c.toNat - 48)) cs := rfl
    rw [Nat.zero_mul, Nat.zero_add] at hstep
    have hdigit : (c.toNat - 48) * 10 ^ cs.length ≤ 9 * 10 ^ cs.length :=
      Nat.mul_le_mul_right _ (by omega)
    rw [hstep, numberFrom_eq, List.length_cons, Nat.pow_succ]
    omega

/-! ## Fixed widths -/

@[simp] theorem length_padded (width n : Nat) : (padded width n).length = width := by
  induction width generalizing n with
  | zero => rfl
  | succ width ih => rw [padded, List.length_append, ih, List.length_singleton]

theorem digits_padded (width n : Nat) : Digits (padded width n) := by
  induction width generalizing n with
  | zero => simp [Digits, padded]
  | succ width ih =>
    rw [padded]
    refine List.forall_mem_append.2 ⟨ih (n / 10), fun c hc => ?_⟩
    rw [List.mem_singleton.1 hc]
    exact isDigit_digitChar (Nat.mod_lt n (by decide))

theorem isBlank_of_mem_padded {width n : Nat} {c : Char} (hc : c ∈ padded width n) :
    Text.isBlank c = false :=
  isBlank_of_isDigit (digits_padded width n c hc)

theorem numberFrom_padded (width n : Nat) : numberFrom 0 (padded width n) = n % 10 ^ width := by
  induction width generalizing n with
  | zero => simp [padded, numberFrom, Nat.mod_one]
  | succ width ih =>
    rw [padded, numberFrom_concat _ _ (Nat.mod_lt n (by decide)), ih, Nat.pow_succ',
      Nat.mod_mul]
    omega

/-- A number of a fixed width begins with a digit. -/
theorem padded_succ_eq_cons (width n : Nat) :
    ∃ d ds, d < 10 ∧ padded (width + 1) n = digitChar d :: ds := by
  induction width generalizing n with
  | zero => exact ⟨n % 10, [], Nat.mod_lt n (by decide), rfl⟩
  | succ width ih =>
    obtain ⟨d, ds, hd, hpadded⟩ := ih (n / 10)
    rw [padded, hpadded]
    exact ⟨d, ds ++ [digitChar (n % 10)], hd, rfl⟩

/-- A text begins with no digit. -/
def StopsDigits (s : List Char) : Prop :=
  ∀ c, s.head? = some c → isDigit c = false

/-- Leading digits are taken as far as they are wanted and as they go. -/
theorem leadingDigits_append {digits rest : List Char} (hdigits : Digits digits) {most : Nat}
    (h : most ≤ digits.length ∨ StopsDigits rest) :
    leadingDigits most (digits ++ rest) = (digits.take most, digits.drop most ++ rest) := by
  induction digits generalizing most with
  | nil =>
    cases most with
    | zero => simp [leadingDigits]
    | succ most =>
      have hstop : StopsDigits rest := h.resolve_left (Nat.not_succ_le_zero most)
      cases rest with
      | nil => simp [leadingDigits]
      | cons c cs => simp [leadingDigits, hstop c rfl]
  | cons c cs ih =>
    cases most with
    | zero => simp [leadingDigits]
    | succ most =>
      have hc := hdigits c List.mem_cons_self
      have hcs : leadingDigits most (cs ++ rest) = _ :=
        ih (fun d hd => hdigits d (List.mem_cons_of_mem _ hd)) (h.imp_left Nat.le_of_succ_le_succ)
      simp [leadingDigits, hc, hcs]

/-- At most as many digits are taken as are wanted. -/
theorem leadingDigits_spec (most : Nat) (s : List Char) :
    Digits (leadingDigits most s).1 ∧ (leadingDigits most s).1.length ≤ most := by
  induction most generalizing s with
  | zero => exact ⟨by simp [leadingDigits, Digits], Nat.le_refl 0⟩
  | succ most ih =>
    cases s with
    | nil => exact ⟨by simp [leadingDigits, Digits], Nat.zero_le _⟩
    | cons c cs =>
      rw [leadingDigits]
      split
      · rename_i hc
        exact ⟨List.forall_mem_cons.2 ⟨hc, (ih cs).1⟩, Nat.succ_le_succ (ih cs).2⟩
      · exact ⟨by simp [Digits], Nat.zero_le _⟩

/-- A number of a fixed width is read back, whatever follows it. -/
theorem readNumber_padded {least width n : Nat} (hleast : least ≤ width) (hn : n < 10 ^ width)
    (rest : List Char) : readNumber least width (padded width n ++ rest) = some (n, rest) := by
  have hlength : (padded width n).length = width := length_padded width n
  have hlead : leadingDigits width (padded width n ++ rest) = _ :=
    leadingDigits_append (digits_padded width n) (.inl hlength.ge)
  rw [List.take_of_length_le hlength.le, List.drop_eq_nil_of_le hlength.le,
    List.nil_append] at hlead
  simp only [readNumber, hlead, hlength, numberFrom_padded, Nat.mod_eq_of_lt hn]
  rw [if_neg (Nat.not_lt.2 hleast)]

/-- A reader that goes on after a number of a fixed width. Simplification uses this before it looks
into what follows, which it would otherwise go through once for every number. -/
theorem bind_readNumber_padded {β : Type} {width n : Nat} (hn : n < 10 ^ width) (rest : List Char)
    (next : Nat × List Char → Option β) :
    (readNumber width width (padded width n ++ rest) >>= next) = next (n, rest) := by
  rw [readNumber_padded (Nat.le_refl width) hn]
  rfl

theorem bind_afterHead {β : Type} (c : Char) (rest : List Char) (next : List Char → Option β) :
    (Text.afterHead [c] (c :: rest) >>= next) = next rest := by
  simp [Text.afterHead]

/-- What begins with a number of a fixed width begins with a digit. -/
theorem isDigit_head_padded {width : Nat} (hwidth : 0 < width) {n : Nat} {rest : List Char}
    {c : Char} (h : (padded width n ++ rest).head? = some c) : isDigit c = true := by
  obtain ⟨width, rfl⟩ := Nat.exists_eq_succ_of_ne_zero hwidth.ne'
  obtain ⟨d, ds, hd, hpadded⟩ := padded_succ_eq_cons width n
  rw [hpadded] at h
  rw [← Option.some.inj h]
  exact isDigit_digitChar hd

theorem trimStart_padded {width : Nat} (hwidth : 0 < width) (n : Nat) (rest : List Char) :
    Text.trimStart (padded width n ++ rest) = padded width n ++ rest :=
  Text.trimStart_eq_self fun _ hc => isBlank_of_isDigit (isDigit_head_padded hwidth hc)

/-- Numbers that may have blanks before them and may be short are read back likewise. -/
theorem readLooseNumber_padded {width n : Nat} (hwidth : 0 < width) (hn : n < 10 ^ width)
    (rest : List Char) :
    readLooseNumber width (padded width n ++ rest) = some (n, rest) := by
  rw [readLooseNumber, trimStart_padded hwidth, readNumber_padded hwidth hn]

/-! ## Least widths -/

theorem padded_zero (width : Nat) : padded width 0 = List.replicate width '0' := by
  induction width with
  | zero => rfl
  | succ width ih =>
    rw [padded, Nat.zero_div, ih, List.replicate_succ']
    rfl

theorem natDigitChar_eq {d : Nat} (h : d < 10) : Nat.digitChar d = digitChar d := by
  have hall : ∀ d < 10, Nat.digitChar d = digitChar d := by decide
  exact hall d h

/-- Numbers that need no more digits than are wanted are written with exactly these. -/
theorem atLeast_eq_padded {width n : Nat} (h : n < 10 ^ (width + 1)) :
    atLeast (width + 1) n = padded (width + 1) n := by
  induction width generalizing n with
  | zero =>
    have hsmall : n < 10 := h
    rw [atLeast, Nat.toDigits_of_lt_base hsmall, natDigitChar_eq hsmall, padded,
      Nat.mod_eq_of_lt hsmall]
    rfl
  | succ width ih =>
    by_cases hsmall : n < 10
    · rw [atLeast, Nat.toDigits_of_lt_base hsmall, natDigitChar_eq hsmall, padded,
        Nat.div_eq_of_lt hsmall, Nat.mod_eq_of_lt hsmall, padded_zero]
      rfl
    · have hlead := ih (n := n / 10) (by rw [Nat.pow_succ] at h; omega)
      rw [atLeast, Nat.toDigits_of_base_le (by decide) (by omega),
        natDigitChar_eq (Nat.mod_lt n (by decide)), padded, ← hlead, atLeast, List.append_assoc,
        List.length_append, List.length_singleton, Nat.add_sub_add_right]

/-- The digits of a number do not begin with zero. -/
theorem toDigits_eq_cons {n : Nat} (h : 0 < n) :
    ∃ d ds, 0 < d ∧ d < 10 ∧ Nat.toDigits 10 n = digitChar d :: ds := by
  induction n using Nat.strongRecOn with
  | ind n ih =>
    by_cases hsmall : n < 10
    · exact ⟨n, [], h, hsmall, by rw [Nat.toDigits_of_lt_base hsmall, natDigitChar_eq hsmall]⟩
    · obtain ⟨d, ds, hpos, hd, hdigits⟩ := ih (n / 10) (by omega) (by omega)
      refine ⟨d, ds ++ [(n % 10).digitChar], hpos, hd, ?_⟩
      rw [Nat.toDigits_of_base_le (by decide) (by omega), hdigits, List.cons_append]

/-! ## Fractions of a second -/

/-- A text writes a number of nanoseconds below a second in full, as a fraction of a second: it is
empty for none, or a point and digits that denote the fraction exactly. -/
def WritesFraction (nanos : Nat) (text : List Char) : Prop :=
  (nanos = 0 ∧ text = []) ∨
    ∃ digits, text = '.' :: digits ∧ digits ≠ [] ∧ Digits digits ∧
      numberFrom 0 digits * nanosPerSecond = nanos * 10 ^ digits.length

/-- Of digits that denote a number of nanoseconds exactly the first nine count, and the others are
zeros. -/
theorem numberFrom_take {nanos : Nat} {digits : List Char} (hdigits : Digits digits)
    (hvalue : numberFrom 0 digits * nanosPerSecond = nanos * 10 ^ digits.length) :
    numberFrom 0 (digits.take 9) * 10 ^ (9 - (digits.take 9).length) = nanos := by
  have hsecond : nanosPerSecond = 10 ^ 9 := rfl
  rw [hsecond] at hvalue
  by_cases hshort : digits.length ≤ 9
  · rw [List.take_of_length_le hshort]
    refine Nat.eq_of_mul_eq_mul_right (Nat.pow_pos (n := digits.length) (by decide : 0 < 10)) ?_
    rw [Nat.mul_assoc, ← Nat.pow_add, Nat.sub_add_cancel hshort, hvalue]
  · have hlength : (digits.take 9).length = 9 := by
      rw [List.length_take]
      omega
    have hrest : Digits (digits.drop 9) := fun c hc => hdigits c (List.mem_of_mem_drop hc)
    have hlt := numberFrom_lt hrest
    have hnumber : numberFrom 0 digits =
        numberFrom 0 (digits.take 9) * 10 ^ (digits.drop 9).length +
          numberFrom 0 (digits.drop 9) := by
      rw [← numberFrom_eq, ← numberFrom_append, List.take_append_drop]
    have hwidth : digits.length = (digits.drop 9).length + 9 := by
      rw [List.length_drop]
      omega
    -- Both sides have nine zeros more than the digits behind the ninth.
    rw [hwidth, Nat.pow_add, ← Nat.mul_assoc] at hvalue
    have hcancel := Nat.eq_of_mul_eq_mul_right (by decide) hvalue
    rw [hnumber] at hcancel
    rw [hlength, Nat.sub_self, Nat.pow_zero, Nat.mul_one]
    have hpos : 0 < 10 ^ (digits.drop 9).length := Nat.pow_pos (by decide)
    rw [← Nat.mul_div_cancel nanos hpos, ← hcancel, Nat.mul_comm, Nat.mul_add_div hpos,
      Nat.div_eq_of_lt hlt, Nat.add_zero]

theorem readNanos_of_denotes {nanos : Nat} {digits rest : List Char} (hne : digits ≠ [])
    (hdigits : Digits digits)
    (hvalue : numberFrom 0 digits * nanosPerSecond = nanos * 10 ^ digits.length)
    (hrest : StopsDigits rest) : readNanos (digits ++ rest) = some (nanos, rest) := by
  have hafter : (digits.drop 9 ++ rest).dropWhile isDigit = rest := by
    rw [List.dropWhile_append_of_pos fun c hc => hdigits c (List.mem_of_mem_drop hc)]
    cases rest with
    | nil => rfl
    | cons c cs => simp [hrest c rfl]
  have hnonempty : (digits.take 9).isEmpty = false := by
    cases digits with
    | nil => exact absurd rfl hne
    | cons c cs => rfl
  simp only [readNanos, leadingDigits_append hdigits (.inr hrest), hafter, hnonempty]
  exact congrArg (fun n => some (n, rest)) (numberFrom_take hdigits hvalue)

/-- The digits of a fraction that is written in full denote it. -/
theorem readFraction_of_writes {nanos : Nat} {text rest : List Char}
    (h : WritesFraction nanos text) (hrest : StopsDigits rest) (hpoint : rest.head? ≠ some '.') :
    readFraction (text ++ rest) = some (nanos, rest) := by
  rcases h with ⟨rfl, rfl⟩ | ⟨digits, rfl, hne, hdigits, hvalue⟩
  · rw [List.nil_append, readFraction]
    rintro cs rfl
    exact hpoint rfl
  · exact readNanos_of_denotes hne hdigits hvalue hrest

end FilterQuery.Instant
