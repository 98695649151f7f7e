import Factbase.Calendar.Instant
import Mathlib.Order.SuccPred.Archimedean
import Mathlib.Tactic.IntervalCases
import Mathlib.Tactic.SplitIfs

/-
  The numbering of dates by days.

  Every day number belongs to a date that exists, and the number
  of that date is the day number again.  Months follow each other
  without a gap, so later dates have greater numbers.

  Main declarations:
    * `Date.toDay_ofDay`
    * `Date.valid_ofDay`
    * `Date.toDay_lt_toDay`
    * `Date.ofDay_before`
-/

namespace Factbase

namespace Date

------------------------------------------------------------
-- Years of a Cycle
------------------------------------------------------------

/- The year of a cycle that a day is in, from March to February. -/
def yearInCycle (day : Nat) : Nat :=
  (day - day / 1460 + day / 36524 - day / 146096) / 365

/- The days of a cycle before one of its years. -/
def yearStart (year : Nat) : Nat :=
  365 * year + year / 4 - year / 100

/-
  Of a day, the century, the group of four years in it and the
  day in that group give the year.
-/
theorem yearInCycle_eq
    (century group day : Nat)
    (hCentury : century < 4)
    (hGroup : group < 25)
    (hDay : day < 1461)
    (hShort : group = 24 → day < 1460) :
    yearInCycle (36524 * century + 1461 * group + day) =
      100 * century + 4 * group + min (day / 365) 3 := by
  unfold yearInCycle
  have hNoCycle :
      (36524 * century + 1461 * group + day) / 146096 = 0 := by
    omega
  have hWhole :
      (36524 * century + 1461 * group + day) / 36524 =
        century := by
    omega
  have hDays :
      36524 * century + 1461 * group + day
          - (36524 * century + 1461 * group + day) / 1460
          + century =
        365 * (100 * century + 4 * group)
          + (day - (24 * century + group + day) / 1460) := by
    omega
  rw [hNoCycle, hWhole, hDays]
  omega

/- The leap days of a cycle, by centuries and groups of years. -/
theorem yearStart_eq
    (century group year : Nat)
    (hGroup : group < 25)
    (hYear : year < 4) :
    yearStart (100 * century + 4 * group + year) =
      36524 * century + 1461 * group + 365 * year := by
  have hGroups :
      (100 * century + 4 * group + year) / 4 =
        25 * century + group := by omega
  have hCenturies :
      (100 * century + 4 * group + year) / 100 = century := by
    omega
  rw [yearStart, hGroups, hCenturies]
  omega

/-
  A day lies in its year, which has 366 days only if the
  February at its end has a leap day.
-/
theorem yearInCycle_bounds
    {day : Nat}
    (hDay : day < 146097) :
    yearInCycle day < 400 ∧ yearStart (yearInCycle day) ≤ day ∧
      day ≤ yearStart (yearInCycle day) + 365 ∧
      (day = yearStart (yearInCycle day) + 365 →
        (yearInCycle day + 1) % 4 = 0 ∧
          ((yearInCycle day + 1) % 100 = 0 →
            (yearInCycle day + 1) % 400 = 0)) := by
  by_cases hLast : day = 146096
  · rw [hLast]
    decide
  · have hSplit : day =
        36524 * (day / 36524) + 1461 * (day % 36524 / 1461)
          + day % 36524 % 1461 := by omega
    have hCentury : day / 36524 < 4 := by omega
    have hGroup : day % 36524 / 1461 < 25 := by omega
    have hDayIn : day % 36524 % 1461 < 1461 := by omega
    have hShort :
        day % 36524 / 1461 = 24 → day % 36524 % 1461 < 1460 := by
      omega
    have hYear :=
      yearInCycle_eq _ _ _ hCentury hGroup hDayIn hShort
    have hStart := yearStart_eq (day / 36524)
      (day % 36524 / 1461) (min (day % 36524 % 1461 / 365) 3)
      hGroup (by omega)
    rw [← hSplit] at hYear
    rw [← hYear] at hStart
    omega

------------------------------------------------------------
-- Years from March
------------------------------------------------------------

/- The days before a year that starts in March. -/
def daysBefore (year : Int) : Int :=
  365 * year + year / 4 - year / 100 + year / 400

/- The year of a date if years start in March. -/
def marchYear (d : Date) : Int :=
  if d.month ≤ 2 then d.year - 1 else d.year

/- The month of a date from March on, which is zero. -/
def marchMonth (d : Date) : Nat :=
  (d.month + 9) % 12

/- The days of a year from March before one of its months. -/
def monthStart (month : Nat) : Nat :=
  (153 * month + 2) / 5

/- The month of a year from January of one from March. -/
def civilMonth (month : Nat) : Nat :=
  if month < 10 then month + 3 else month - 9

/- The months before February have the same days every year. -/
theorem daysIn_civilMonth
    (year : Int)
    {month : Nat}
    (hMonth : month < 11) :
    daysIn year (civilMonth month) =
      monthStart (month + 1) - monthStart month := by
  interval_cases month <;> rfl

/- The day number of a date, by its year from March on. -/
theorem toDay_eq (d : Date) :
    d.toDay =
      daysBefore d.marchYear + monthStart d.marchMonth + d.day
        - 719469 := by
  simp only [toDay, daysBefore, marchYear, marchMonth,
    monthStart]
  omega

/- Every cycle of 400 years has the same days. -/
theorem daysBefore_cycle
    (cycle : Int)
    {year : Nat}
    (hYear : year < 400) :
    daysBefore (cycle * 400 + year) =
      cycle * 146097 + yearStart year := by
  unfold daysBefore yearStart
  omega

------------------------------------------------------------
-- Dates of Day Numbers
------------------------------------------------------------

/- The cycle of 400 years that a day number is in. -/
def cycleOf (n : Int) : Int :=
  (n + 719468) / 146097

/- The day of its cycle that a day number is. -/
def dayInCycle (n : Int) : Nat :=
  ((n + 719468) % 146097).toNat

/- The day of its year from March that a day number is. -/
def dayInYear (n : Int) : Nat :=
  dayInCycle n - yearStart (yearInCycle (dayInCycle n))

/- The month of its year from March that a day number is in. -/
def monthInYear (n : Int) : Nat :=
  (5 * dayInYear n + 2) / 153

/- The date of a day number, by its cycle and the day in it. -/
theorem ofDay_eq (n : Int) :
    ofDay n =
      { year := cycleOf n * 400 + yearInCycle (dayInCycle n)
          + (if civilMonth (monthInYear n) ≤ 2 then 1 else 0),
        month := civilMonth (monthInYear n),
        day := dayInYear n - monthStart (monthInYear n) + 1 } :=
  rfl

/- A cycle has 146097 days. -/
theorem dayInCycle_lt (n : Int) : dayInCycle n < 146097 := by
  unfold dayInCycle
  omega

/- A year has at most 366 days. -/
theorem dayInYear_le (n : Int) : dayInYear n ≤ 365 := by
  have hBounds := yearInCycle_bounds (dayInCycle_lt n)
  unfold dayInYear
  omega

/- A day lies in its month. -/
theorem monthInYear_bounds (n : Int) :
    monthInYear n < 12 ∧
      monthStart (monthInYear n) ≤ dayInYear n ∧
      dayInYear n < monthStart (monthInYear n + 1) := by
  have hDay := dayInYear_le n
  unfold monthStart monthInYear
  omega

/- The month of the date is the one computed from the day. -/
theorem marchMonth_ofDay (n : Int) :
    (ofDay n).marchMonth = monthInYear n := by
  have hMonth := monthInYear_bounds n
  simp only [marchMonth, ofDay_eq, civilMonth]
  split_ifs <;> omega

/- So is the year. -/
theorem marchYear_ofDay (n : Int) :
    (ofDay n).marchYear =
      cycleOf n * 400 + yearInCycle (dayInCycle n) := by
  simp only [marchYear, ofDay_eq]
  split_ifs <;> omega

/- A day number is that of its date. -/
theorem toDay_ofDay (n : Int) : (ofDay n).toDay = n := by
  rcases yearInCycle_bounds (dayInCycle_lt n) with
    ⟨hYear, hStart, _⟩
  have hMonth := monthInYear_bounds n
  have hDay : (ofDay n).day =
      dayInYear n - monthStart (monthInYear n) + 1 := rfl
  have hCycle :
      cycleOf n * 146097 + dayInCycle n = n + 719468 := by
    unfold cycleOf dayInCycle
    omega
  rw [toDay_eq, marchMonth_ofDay, marchYear_ofDay,
    daysBefore_cycle _ hYear, hDay]
  unfold dayInYear at *
  omega

/- Only a year with a leap day at its end has 366 days. -/
theorem isLeap_of_dayInYear
    {n : Int}
    (hDay : dayInYear n = 365) :
    isLeap (cycleOf n * 400 + yearInCycle (dayInCycle n) + 1) =
      true := by
  rcases yearInCycle_bounds (dayInCycle_lt n) with
    ⟨_, hStart, _, hLeap⟩
  have hYears := hLeap (by unfold dayInYear at hDay; omega)
  simp only [isLeap, ne_eq, Bool.and_eq_true, Bool.or_eq_true,
    decide_eq_true_eq]
  generalize yearInCycle (dayInCycle n) = year at *
  omega

/- A month has at least one day and at most 31. -/
theorem daysIn_bounds
    (year : Int)
    (month : Nat) :
    0 < daysIn year month ∧ daysIn year month ≤ 31 := by
  unfold daysIn
  split
  · split_ifs <;> decide
  all_goals decide

/- The date of a day number exists. -/
theorem valid_ofDay (n : Int) : (ofDay n).Valid := by
  rcases monthInYear_bounds n with ⟨hMonth, hStart, hEnd⟩
  have hDay := dayInYear_le n
  have hLeap := @isLeap_of_dayInYear n
  simp only [ofDay_eq, Valid]
  generalize monthInYear n = month at *
  generalize dayInYear n = day at *
  refine ⟨?_, ?_, by omega, ?_⟩
  · unfold civilMonth
    split_ifs <;> omega
  · unfold civilMonth
    split_ifs <;> omega
  · by_cases hEarly : month < 11
    · rw [daysIn_civilMonth _ hEarly]
      omega
    · -- February comes last, and only it asks for the year
      have hLast : month = 11 := by omega
      subst hLast
      have hStart' : monthStart 11 = 337 := rfl
      simp only [civilMonth, daysIn, Nat.reduceLT,
        Nat.reduceSub, Nat.reduceLeDiff, if_true, if_false]
      split_ifs with hYear
      · omega
      · have hShort : day ≠ 365 :=
          fun hEnd => hYear (hLeap hEnd)
        omega

------------------------------------------------------------
-- Order of Dates
------------------------------------------------------------

/- The date is earlier: by year, then month, then day. -/
def before (a b : Date) : Prop :=
  a.year < b.year ∨
    (a.year = b.year ∧
      (a.month < b.month ∨
        (a.month = b.month ∧ a.day < b.day)))

/- Months counted through all years. -/
def monthIndex (d : Date) : Int :=
  12 * d.year + d.month

/- The day number before the first day of a counted month. -/
def monthOrigin (index : Int) : Int :=
  daysBefore ((index - 3) / 12)
    + monthStart ((index - 3) % 12).toNat - 719469

/- Months counted through all years start as within a year. -/
theorem monthOrigin_eq
    (year : Int)
    {month : Nat}
    (hMonth : month < 12) :
    monthOrigin (12 * year + month + 3) =
      daysBefore year + monthStart month - 719469 := by
  have hYear : (12 * year + month + 3 - 3) / 12 = year := by
    omega
  have hRest :
      ((12 * year + month + 3 - 3) % 12).toNat = month := by
    omega
  rw [monthOrigin, hYear, hRest]

/- The count of a valid date, by its year from March on. -/
theorem monthIndex_eq
    {d : Date}
    (hValid : d.Valid) :
    d.monthIndex = 12 * d.marchYear + d.marchMonth + 3 := by
  rcases hValid with ⟨hFirst, hLast, _⟩
  unfold monthIndex marchYear marchMonth
  split_ifs <;> omega

theorem marchMonth_lt (d : Date) : d.marchMonth < 12 :=
  Nat.mod_lt _ (by decide)

/- A date is so many days after the origin of its month. -/
theorem toDay_eq_monthOrigin
    {d : Date}
    (hValid : d.Valid) :
    d.toDay = monthOrigin d.monthIndex + d.day := by
  rw [monthIndex_eq hValid, monthOrigin_eq _ d.marchMonth_lt,
    toDay_eq]
  omega

/- A year from March has the leap day of the next February. -/
theorem daysBefore_succ (year : Int) :
    daysBefore (year + 1) =
      daysBefore year + monthStart 11 + daysIn (year + 1) 2 := by
  have hStart : monthStart 11 = 337 := rfl
  unfold daysBefore daysIn isLeap
  simp only [ne_eq, Bool.and_eq_true, Bool.or_eq_true,
    decide_eq_true_eq]
  split_ifs <;> omega

/- A month ends where the next one starts. -/
theorem monthOrigin_succ
    {d : Date}
    (hValid : d.Valid) :
    monthOrigin (d.monthIndex + 1) =
      monthOrigin d.monthIndex + daysIn d.year d.month := by
  have hMonth : d.month = civilMonth d.marchMonth := by
    rcases hValid with ⟨hFirst, hLast, _⟩
    unfold civilMonth marchMonth
    split_ifs <;> omega
  rw [monthIndex_eq hValid, monthOrigin_eq _ d.marchMonth_lt]
  by_cases hEarly : d.marchMonth < 11
  · have hNext : 12 * d.marchYear + d.marchMonth + 3 + 1 =
        12 * d.marchYear + (d.marchMonth + 1 : Nat) + 3 := by
      omega
    rw [hNext, monthOrigin_eq _ (by omega), hMonth,
      daysIn_civilMonth _ hEarly]
    unfold monthStart
    omega
  · have hLast : d.marchMonth = 11 := by
      have := d.marchMonth_lt
      omega
    have hFebruary : d.month = 2 := by
      rw [hMonth, hLast]
      rfl
    have hYear : d.year = d.marchYear + 1 := by
      unfold marchYear
      rw [if_pos (by omega)]
      omega
    have hNext : 12 * d.marchYear + d.marchMonth + 3 + 1 =
        12 * (d.marchYear + 1) + (0 : Nat) + 3 := by
      omega
    rw [hNext, monthOrigin_eq _ (by decide), daysBefore_succ,
      hLast, hYear, hFebruary]
    unfold monthStart
    omega

/- Later months start later. -/
theorem monthOrigin_mono
    {i j : Int}
    (hLess : i ≤ j) : monthOrigin i ≤ monthOrigin j := by
  apply monotone_int_of_le_succ _ hLess
  intro index
  -- every counted month has a first day
  let d : Date := ⟨(index - 1) / 12, ((index - 1) % 12).toNat + 1, 1⟩
  have hValid : d.Valid := by
    refine ⟨?_, ?_, Nat.le_refl 1, (daysIn_bounds _ _).1⟩ <;>
      simp only [d] <;> omega
  have hIndex : d.monthIndex = index := by
    simp only [monthIndex, d]
    omega
  have hSucc := monthOrigin_succ hValid
  rw [hIndex] at hSucc
  omega

/- A later date has a greater number. -/
theorem toDay_lt_toDay
    {a b : Date}
    (ha : a.Valid)
    (hb : b.Valid)
    (hBefore : a.before b) :
    a.toDay < b.toDay := by
  rw [toDay_eq_monthOrigin ha, toDay_eq_monthOrigin hb]
  have hEnd := monthOrigin_succ ha
  rcases ha with ⟨_, _, _, hLast⟩
  rcases hb with ⟨_, _, hFirst, _⟩
  by_cases hSame : a.monthIndex = b.monthIndex
  · have hDays : a.day < b.day := by
      unfold before at hBefore
      unfold monthIndex at hSame
      omega
    rw [hSame]
    omega
  · have hLater : a.monthIndex + 1 ≤ b.monthIndex := by
      unfold before at hBefore
      unfold monthIndex at hSame ⊢
      omega
    have hOrigin := monthOrigin_mono hLater
    omega

/- Of two dates that differ, one is before the other. -/
theorem before_trichotomy (a b : Date) :
    a.before b ∨ a = b ∨ b.before a := by
  rcases a with ⟨y, m, d⟩
  rcases b with ⟨y', m', d'⟩
  simp only [before, mk.injEq]
  omega

/- A later day has a later date. -/
theorem ofDay_before
    {m n : Int}
    (hLess : m < n) :
    (ofDay m).before (ofDay n) := by
  rcases before_trichotomy (ofDay m) (ofDay n) with
    hBefore | hEqual | hAfter
  · exact hBefore
  · have hDays := congrArg toDay hEqual
    rw [toDay_ofDay, toDay_ofDay] at hDays
    omega
  · have hDays :=
      toDay_lt_toDay (valid_ofDay n) (valid_ofDay m) hAfter
    rw [toDay_ofDay, toDay_ofDay] at hDays
    omega

end Date

end Factbase
