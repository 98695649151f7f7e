import Factbase.Calendar.Reader
import Factbase.Data.Datum
import Factbase.Proofs.Calendar.Clocks
import Factbase.Proofs.Text.Numerals

/-
  Written timestamps and what they read as.

  The text of an instant reads back as the instant.  The strict
  reader takes it only if four digits hold its year, and it is
  then rewritten with nine fraction digits; the relaxed reader
  takes it either way.

  Main declarations:
    * `Stamp.strict_brief`
    * `Stamp.momentText_utc`
    * `Stamp.relaxed_momentText`
-/

namespace Factbase.Stamp

variable {ds r rest : List Char}
variable {c : Char}
variable {n low high : Nat}

------------------------------------------------------------
-- Numbers
------------------------------------------------------------

/- Digits up to a stop, or up to the greatest count. -/
theorem number_append
    {least most : Nat}
    (hDigits : ∀ c ∈ ds, c.isDigit = true)
    (hLeast : least ≤ ds.length)
    (hMost : ds.length ≤ most)
    (hStop : ds.length = most ∨
      ∀ c ∈ rest.head?, c.isDigit = false) :
    number least most (ds ++ rest) =
      .ok (Digits.value ds, rest) := by
  have hTaken :
      ((ds ++ rest).take most).takeWhile Char.isDigit = ds := by
    rw [List.take_append, List.take_of_length_le hMost,
      List.takeWhile_append_of_pos hDigits]
    rcases hStop with hFull | hHead
    · simp [hFull]
    · cases rest with
      | nil => simp
      | cons c cs =>
          cases hLeft : most - ds.length with
          | zero => simp
          | succ left => simp [hHead c rfl]
  simp only [number, hTaken, if_neg (Nat.not_lt.mpr hLeast),
    List.drop_left]

/- A padded number is read back whole, up to its width. -/
theorem number_padded
    {least width : Nat}
    (hPositive : 0 < width)
    (hLeast : least ≤ width)
    (hBound : n < 10 ^ width) :
    number least width (Digits.padded width n ++ rest) =
      .ok (n, rest) := by
  have hLength := Digits.length_padded hPositive hBound
  rw [number_append (fun _ => Digits.isDigit_of_mem_padded)
    (hLength.symm ▸ hLeast) (Nat.le_of_eq hLength)
    (Or.inl hLength), Digits.value_padded]

/- A number within its bounds is let through. -/
theorem bounded_ok (hLow : low ≤ n) (hHigh : n ≤ high) :
    bounded low high (.ok (n, rest)) = .ok (n, rest) :=
  if_pos ⟨hLow, hHigh⟩

/- A number of two digits between bounds. -/
theorem bounded_padded
    (hLow : low ≤ n)
    (hHigh : n ≤ high)
    (hBound : n < 100) :
    bounded low high
        (number 2 2 (Digits.padded 2 n ++ rest)) =
      .ok (n, rest) := by
  rw [number_padded (by decide) (by decide) hBound,
    bounded_ok hLow hHigh]

theorem literal_cons : literal c (c :: rest) = .ok ((), rest) :=
  if_pos rfl

------------------------------------------------------------
-- White Space
------------------------------------------------------------

/- There are no blanks to be skipped before a mark. -/
theorem trimLeft_cons (hMark : isBlank c = false) :
    trimLeft (c :: rest) = c :: rest :=
  List.dropWhile_cons_of_neg (by simp [hMark])

theorem isBlank_of_isDigit (hDigit : c.isDigit = true) :
    isBlank c = false := by
  have hBounds := Char.isDigit_iff_toNat.mp hDigit
  simp only [Char.reduceToNat] at hBounds
  simp only [isBlank, Ranges.blank, Ranges.has,
    List.any_eq_false, List.forall_mem_cons, List.not_mem_nil,
    Bool.and_eq_true, decide_eq_true_eq, false_imp_iff,
    implies_true, and_true]
  omega

/- A number that fills its width starts with a digit. -/
theorem exists_padded_eq_cons
    {width : Nat}
    (hPositive : 0 < width)
    (n : Nat) :
    ∃ d ds, Digits.padded width n = d :: ds ∧
      d.isDigit = true := by
  have hLength :
      0 < (Digits.padded width n).length := by
    rw [Digits.padded, List.length_leftpad]
    omega
  rcases List.exists_cons_of_length_pos hLength with
    ⟨d, ds, hCons⟩
  have hMember : d ∈ Digits.padded width n := by
    rw [hCons]
    exact List.mem_cons_self
  exact ⟨d, ds, hCons, Digits.isDigit_of_mem_padded hMember⟩

/- Nor are there before a number. -/
theorem trimLeft_padded
    {width : Nat}
    (hPositive : 0 < width) :
    trimLeft (Digits.padded width n ++ rest) =
      Digits.padded width n ++ rest := by
  rcases exists_padded_eq_cons hPositive n with
    ⟨d, ds, hCons, hDigit⟩
  rw [hCons, List.cons_append,
    trimLeft_cons (isBlank_of_isDigit hDigit)]

/- A number of one or two digits, if it is written with two. -/
theorem loose_padded
    (hLow : low ≤ n)
    (hHigh : n ≤ high)
    (hBound : n < 100) :
    loose low high (Digits.padded 2 n ++ rest) =
      .ok (n, rest) := by
  rw [loose, trimLeft_padded (by decide),
    number_padded (by decide) (by decide) hBound,
    bounded_ok hLow hHigh]

------------------------------------------------------------
-- Fractions
------------------------------------------------------------

/- A fraction of at most nine digits is filled up. -/
theorem fraction_padded
    {width : Nat}
    (hPositive : 0 < width)
    (hWidth : width ≤ 9)
    (hBound : n < 10 ^ width)
    (hMark : c.isDigit = false) :
    fraction (Digits.padded width n ++ c :: rest) =
      .ok (n * tenTo (9 - width), c :: rest) := by
  have hLength := Digits.length_padded hPositive hBound
  have hNumber : number 1 9 (Digits.padded width n ++ c :: rest)
      = .ok (n, c :: rest) := by
    rw [number_append (fun _ => Digits.isDigit_of_mem_padded)
      (by omega) (by omega) (Or.inr (by simpa using hMark)),
      Digits.value_padded]
  have hTaken : (Digits.padded width n ++ c :: rest).length
      - (c :: rest).length = width := by
    rw [List.length_append, hLength, Nat.add_sub_cancel]
  simp only [fraction, hNumber, bind, Except.bind, hTaken,
    List.take_left' hLength, Digits.value_padded,
    List.dropWhile_cons_of_neg (p := Char.isDigit)
      (by simp [hMark] : ¬ c.isDigit = true)]

/- A fraction is read whether it has three, six or nine digits. -/
theorem optionalFraction_needed
    (hBound : n < 1000000000)
    (hMark : c.isDigit = false)
    (hPoint : c ≠ '.') :
    optionalFraction (neededFraction n ++ c :: rest) =
      .ok (n, c :: rest) := by
  unfold neededFraction
  split_ifs with hZero hMillis hMicros
  · rw [hZero, List.nil_append]
    unfold optionalFraction
    split
    · rename_i hText
      exact absurd (List.cons.inj hText).1 hPoint
    · rfl
  · have hValue : n / 1000000 * tenTo (9 - 3) = n := by
      change n / 1000000 * 1000000 = n
      omega
    rw [List.cons_append, optionalFraction,
      fraction_padded (by decide) (by decide) (by omega) hMark,
      hValue]
  · have hValue : n / 1000 * tenTo (9 - 6) = n := by
      change n / 1000 * 1000 = n
      omega
    rw [List.cons_append, optionalFraction,
      fraction_padded (by decide) (by decide) (by omega) hMark,
      hValue]
  · have hValue : n * tenTo (9 - 9) = n := Nat.mul_one n
    rw [List.cons_append, optionalFraction,
      fraction_padded (by decide) (by decide) hBound hMark,
      hValue]

/- A full fraction is read as its nanoseconds. -/
theorem optionalFraction_full
    (hBound : n < 1000000000)
    (hMark : c.isDigit = false) :
    optionalFraction (fullFraction n ++ c :: rest) =
      .ok (n, c :: rest) := by
  have hValue : n * tenTo (9 - 9) = n := Nat.mul_one n
  rw [fullFraction, List.cons_append, optionalFraction,
    fraction_padded (by decide) (by decide) hBound hMark, hValue]

------------------------------------------------------------
-- Years
------------------------------------------------------------

/- Four digits hold the year. -/
def FourDigits (year : Int) : Prop :=
  0 ≤ year ∧ year ≤ 9999

instance (year : Int) : Decidable (FourDigits year) := by
  unfold FourDigits
  infer_instance

/- A year of four digits is read back. -/
theorem number_year
    {y : Int}
    (hYear : FourDigits y) :
    number 4 4 (year y ++ rest) = .ok (y.toNat, rest) := by
  rcases hYear with ⟨hLow, hHigh⟩
  rw [year, if_pos ⟨hLow, hHigh⟩]
  exact number_padded (by decide) (by decide) (by omega)

/- A year with a sign has no digit at the front. -/
theorem number_year_signed
    {y : Int}
    (hYear : ¬ FourDigits y) :
    ∃ fault, number 4 4 (year y ++ rest) = .error fault := by
  unfold FourDigits at hYear
  rw [year, if_neg hYear]
  split_ifs <;> exact ⟨_, rfl⟩

/- A year without a sign has at most four digits. -/
theorem signedYear_digits
    (hDigit : c.isDigit = true) :
    signedYear (c :: rest) =
      (number 1 4 (c :: rest)).map
        fun (n, r) => ((n : Int), r) := by
  have hMinus : c ≠ '-' := by
    rintro rfl
    exact absurd hDigit (by decide)
  have hPlus : c ≠ '+' := by
    rintro rfl
    exact absurd hDigit (by decide)
  rw [signedYear, trimLeft_cons (isBlank_of_isDigit hDigit)]
  split
  · rename_i hText
    exact absurd (List.cons.inj hText).1 hMinus
  · rename_i hText
    exact absurd (List.cons.inj hText).1 hPlus
  · cases number 1 4 (c :: rest) <;> rfl

/- Any year is read up to the dash after it. -/
theorem signedYear_year
    {y : Int}
    (hSize : y.natAbs ≤ yearLimit) :
    signedYear (year y ++ '-' :: rest) =
      .ok (y, '-' :: rest) := by
  have hNumber :
      number 1
          (Digits.padded 4 y.natAbs ++ '-' :: rest).length
          (Digits.padded 4 y.natAbs ++ '-' :: rest) =
        .ok (y.natAbs, '-' :: rest) := by
    have hLength : 4 ≤ (Digits.padded 4 y.natAbs).length := by
      rw [Digits.padded, List.length_leftpad]
      omega
    rw [number_append (fun _ => Digits.isDigit_of_mem_padded)
      (by omega) (by simp) (Or.inr (by simp)),
      Digits.value_padded]
  unfold year
  split_ifs with hYear hNegative
  · rcases exists_padded_eq_cons (by decide : 0 < 4) y.toNat with
      ⟨d, ds, hCons, hDigit⟩
    rw [hCons, List.cons_append, signedYear_digits hDigit,
      ← List.cons_append, ← hCons,
      number_padded (by decide) (by decide) (by omega)]
    simp only [Except.map, Int.toNat_of_nonneg hYear.1]
  · have hValue : -(y.natAbs : Int) = y := by omega
    rw [List.cons_append, signedYear, trimLeft_cons (by decide)]
    simp only [hNumber, bind, Except.bind,
      bounded_ok (Nat.zero_le _) (Nat.le_succ_of_le hSize),
      hValue]
  · have hValue : (y.natAbs : Int) = y := by omega
    rw [List.cons_append, signedYear, trimLeft_cons (by decide)]
    simp only [hNumber, bind, Except.bind,
      bounded_ok (Nat.zero_le _) hSize, hValue]

------------------------------------------------------------
-- Clock Readings
------------------------------------------------------------

/- A reading whose parts are written as they are read. -/
def Legible (c : Clock) : Prop :=
  c.date.Valid ∧ c.hour ≤ 23 ∧ c.minute ≤ 59 ∧ c.second ≤ 60 ∧
    c.nanos < 1000000000 ∧ c.offset = 0

/- A proper instant is written as it is read. -/
theorem legible_clock
    {t : Instant}
    (hProper : t.Proper) : Legible t.utc.clock := by
  rcases Instant.clock_bounds hProper with
    ⟨hHour, hMinute, hSecond, hNanos⟩
  refine ⟨?_, hHour, hMinute, hSecond, hNanos, rfl⟩
  rw [Instant.date_clock]
  exact Date.valid_ofDay _

/- The strict reader reads what is written, whatever the form of
   the fraction and of the offset. -/
theorem strictClock_dateTime
    {c : Clock}
    {offset : Int}
    {zone : List Char}
    (hLegible : Legible c)
    (hYear : FourDigits c.date.year)
    (hFraction : optionalFraction rest = .ok (c.nanos, zone))
    (hZone : offsetSeconds (literal ':') zone = .ok (offset, [])) :
    strictClock (dateTime c ++ rest) =
      if 86400 ≤ offset.natAbs then .error .outOfRange
      else .ok { c with offset := offset } := by
  rcases c with ⟨⟨year, month, day⟩, hour, minute, second, nanos,
    _⟩
  rcases hLegible with ⟨⟨hMonth, hMonths, hDay, hDays⟩, hHour,
    hMinute, hSecond, hNanos, _⟩
  have hDays' := (Date.daysIn_bounds year month).2
  have hValue : (year.toNat : Int) = year :=
    Int.toNat_of_nonneg hYear.1
  simp only [dateTime, List.append_assoc, List.cons_append,
    strictClock] at *
  simp (disch := omega) only [number_year hYear, literal_cons,
    bounded_padded, dateEnd, hFraction, hZone, bind, Except.bind,
    hValue]
  rfl

/- The relaxed reader also reads years with a sign. -/
theorem relaxedClock_dateTime
    {c : Clock}
    {offset : Int}
    {zone : List Char}
    (hLegible : Legible c)
    (hYear : c.date.year.natAbs ≤ yearLimit)
    (hFraction : optionalFraction rest = .ok (c.nanos, zone))
    (hZone : looseOffset (trimLeft zone) = .ok (offset, [])) :
    relaxedClock (dateTime c ++ rest) =
      .ok { c with offset := offset } := by
  rcases c with ⟨⟨year, month, day⟩, hour, minute, second, nanos,
    _⟩
  rcases hLegible with ⟨⟨hMonth, hMonths, hDay, hDays⟩, hHour,
    hMinute, hSecond, hNanos, _⟩
  have hDays' := (Date.daysIn_bounds year month).2
  have hDash : isBlank '-' = false := by decide
  have hColon : isBlank ':' = false := by decide
  simp only [dateTime, List.append_assoc, List.cons_append,
    relaxedClock] at *
  simp (disch := omega) only [signedYear_year hYear,
    trimLeft_cons hDash, trimLeft_cons hColon, literal_cons,
    loose_padded, dateEnd, hFraction, hZone, bind, Except.bind]
  rfl

/- A supported year is one of those that the reader counts. -/
theorem natAbs_year_le
    {t : Instant}
    (hProper : t.Proper) :
    t.utc.clock.date.year.natAbs ≤ yearLimit := by
  rcases hProper.1 with ⟨hFirst, hLast⟩
  have hValid := Date.valid_ofDay t.day
  have hDay := Date.toDay_ofDay t.day
  rw [Instant.date_clock]
  change Instant.firstDay ≤ t.day at hFirst
  change t.day ≤ Instant.lastDay at hLast
  have hNotLess : -262143 ≤ (Date.ofDay t.day).year := by
    by_contra hLess
    have hOrder := Date.toDay_lt_toDay hValid
      (by decide : Date.Valid ⟨-262143, 1, 1⟩)
      (Or.inl (Int.not_le.mp hLess))
    rw [hDay] at hOrder
    exact absurd hFirst (Int.not_le.mpr hOrder)
  have hNotMore : (Date.ofDay t.day).year ≤ 262142 := by
    by_contra hMore
    have hOrder := Date.toDay_lt_toDay
      (by decide : Date.Valid ⟨262142, 12, 31⟩) hValid
      (Or.inl (Int.not_le.mp hMore))
    rw [hDay] at hOrder
    exact absurd hLast (Int.not_le.mpr hOrder)
  unfold yearLimit
  omega

/- A reading is that of a supported instant. -/
theorem resolve_clock
    {t : Instant}
    (hProper : t.Proper) : resolve t.utc.clock = .ok t.utc := by
  have hSupported := hProper.1
  have hDay : t.utc.clock.date.toDay = t.seconds / 86400 := by
    rw [Instant.date_clock, Date.toDay_ofDay]
    rfl
  have hValid : t.utc.clock.date.Valid := (legible_clock hProper).1
  have hOffset : t.utc.clock.offset.natAbs < 86400 :=
    Nat.zero_lt_succ _
  unfold resolve
  simp only [hDay, hValid, Instant.toZoned_clock hProper]
  rw [if_neg, if_neg (Nat.not_le.mpr hOffset), if_neg]
  · exact not_not_intro hSupported
  · unfold Instant.Representable at hSupported
    simp only [not_true_eq_false, false_or]
    omega

------------------------------------------------------------
-- Timestamps
------------------------------------------------------------

variable {t : Instant}

/- Four digits hold the year of an instant in UTC. -/
def InFourDigits (t : Instant) : Prop :=
  FourDigits t.utc.clock.date.year

instance (t : Instant) : Decidable (InFourDigits t) := by
  unfold InFourDigits
  infer_instance

/- The short text of an instant in UTC, part by part. -/
theorem brief_utc (t : Instant) :
    brief t.utc =
      dateTime t.utc.clock ++
        (neededFraction t.utc.clock.nanos ++ ['Z']) := by
  rw [← List.append_assoc]
  rfl

/- The stored text of an instant, part by part. -/
theorem fixed_eq (t : Instant) :
    fixed t =
      dateTime t.utc.clock ++
        (fullFraction t.utc.clock.nanos ++ ['Z']) := by
  rw [← List.append_assoc]
  rfl

/- The short text of an instant with a year of four digits. -/
theorem strict_brief
    (hProper : t.Proper)
    (hYear : InFourDigits t) :
    strict (brief t.utc) = .ok t.utc := by
  have hLegible := legible_clock hProper
  have hNanos := hLegible.2.2.2.2.1
  rw [strict, brief_utc,
    strictClock_dateTime hLegible hYear
      (optionalFraction_needed hNanos (by decide) (by decide))
      rfl]
  exact resolve_clock hProper

/- The strict reader takes no year with a sign. -/
theorem strict_dateTime_signed
    {c : Clock}
    (hYear : ¬ FourDigits c.date.year) :
    ∃ fault, strict (dateTime c ++ rest) = .error fault := by
  simp only [dateTime, List.append_assoc, strict, strictClock]
  rcases number_year_signed hYear with ⟨fault, hFault⟩
  rw [hFault]
  exact ⟨fault, rfl⟩

/-
  An instant is stored with nine fraction digits, unless its
  year needs a sign.
-/
theorem momentText_utc (hProper : t.Proper) :
    momentText t.utc =
      if InFourDigits t then fixed t else brief t.utc := by
  rw [momentText, canonicalText]
  split_ifs with hYear
  · rw [strict_brief hProper hYear]
    rfl
  · rw [brief_utc]
    rcases strict_dateTime_signed hYear with ⟨fault, hFault⟩
    rw [hFault]

/- The relaxed reader reads what is stored, too. -/
theorem relaxed_fixed (hProper : t.Proper) :
    relaxed (fixed t) = .ok t.utc := by
  have hLegible := legible_clock hProper
  rw [fixed_eq, relaxed,
    relaxedClock_dateTime hLegible (natAbs_year_le hProper)
      (optionalFraction_full hLegible.2.2.2.2.1 (by decide)) rfl]
  exact resolve_clock hProper

/- A stored instant reads back as itself. -/
theorem relaxed_momentText (hProper : t.Proper) :
    relaxed (momentText t.utc) = .ok t.utc := by
  have hLegible := legible_clock hProper
  have hNanos := hLegible.2.2.2.2.1
  have hYear := natAbs_year_le hProper
  rw [momentText_utc hProper]
  split_ifs
  · exact relaxed_fixed hProper
  · rw [relaxed, brief_utc, relaxedClock_dateTime hLegible hYear
      (optionalFraction_needed hNanos (by decide) (by decide)) rfl]
    exact resolve_clock hProper

end Factbase.Stamp
