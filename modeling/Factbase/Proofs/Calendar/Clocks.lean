import Factbase.Proofs.Calendar.Days

/-
  What a clock in UTC shows, and the order of its readings.

  A reading gives its instant back, and later instants have
  later readings: by date, then by time of day.  A leap second
  shows as second 60, after second 59 and before the minute
  that follows.

  Main declarations:
    * `Instant.Proper`
    * `Instant.toZoned_clock`
    * `Instant.clock_before`
-/

namespace Factbase

------------------------------------------------------------
-- Proper Instants
------------------------------------------------------------

namespace Instant

/-
  The date is supported, and a count of one second or more
  belongs to the last second of a minute.
-/
def Proper (t : Instant) : Prop :=
  t.Representable ∧ t.nanos < 2000000000 ∧
    (1000000000 ≤ t.nanos → t.seconds % 60 = 59)

instance (t : Instant) : Decidable t.Proper := by
  unfold Proper
  infer_instance

variable {a b t : Instant}

theorem before_trichotomy (a b : Instant) :
    a.before b ∨ a = b ∨ b.before a := by
  rcases a with ⟨s, n⟩
  rcases b with ⟨s', n'⟩
  simp only [before, mk.injEq]
  omega

------------------------------------------------------------
-- Readings
------------------------------------------------------------

def day (t : Instant) : Int :=
  t.seconds / 86400

/- The second of its day in UTC that an instant is in. -/
def inDay (t : Instant) : Nat :=
  (t.seconds % 86400).toNat

/- An instant is in a day and in a second of that day. -/
theorem seconds_eq (t : Instant) :
    t.seconds = 86400 * t.day + t.inDay ∧ t.inDay < 86400 := by
  unfold day inDay
  omega

/- A leap second follows the last second of a minute. -/
theorem leap_inDay
    (hProper : t.Proper)
    (hLeap : 1000000000 ≤ t.nanos) : t.inDay % 60 = 59 := by
  have hSecond := hProper.2.2 hLeap
  unfold inDay
  omega

/- An ordinary second is shown as it is. -/
theorem clock_of_lt (hNanos : t.nanos < 1000000000) :
    t.utc.clock =
      { date := Date.ofDay t.day,
        hour := t.inDay / 3600,
        minute := t.inDay / 60 % 60,
        second := t.inDay % 60,
        nanos := t.nanos,
        offset := 0 } := by
  simp [Zoned.clock, utc, day, inDay, Nat.not_le.mpr hNanos]

/- A leap second is shown as the one after its second. -/
theorem clock_of_le (hLeap : 1000000000 ≤ t.nanos) :
    t.utc.clock =
      { date := Date.ofDay t.day,
        hour := t.inDay / 3600,
        minute := t.inDay / 60 % 60,
        second := t.inDay % 60 + 1,
        nanos := t.nanos - 1000000000,
        offset := 0 } := by
  simp [Zoned.clock, utc, day, inDay, hLeap]

theorem date_clock (t : Instant) :
    t.utc.clock.date = Date.ofDay t.day := by
  simp [Zoned.clock, utc, day]

/- The time of day exists. -/
theorem clock_bounds (hProper : t.Proper) :
    t.utc.clock.hour ≤ 23 ∧ t.utc.clock.minute ≤ 59 ∧
      t.utc.clock.second ≤ 60 ∧
      t.utc.clock.nanos < 1000000000 := by
  have hDay := t.seconds_eq.2
  have hNanos := hProper.2.1
  rcases Nat.lt_or_ge t.nanos 1000000000 with hPlain | hLeap
  · simp only [clock_of_lt hPlain]
    omega
  · simp only [clock_of_le hLeap]
    omega

/- A reading shows the instant. -/
theorem toZoned_clock (hProper : t.Proper) :
    t.utc.clock.toZoned = t.utc := by
  have hSeconds := t.seconds_eq
  have hTime : t.inDay / 3600 * 3600 + t.inDay / 60 % 60 * 60
      + t.inDay % 60 = t.inDay := by omega
  rcases Nat.lt_or_ge t.nanos 1000000000 with hPlain | hLeap
  · have hSecond : t.inDay % 60 ≠ 60 := by omega
    have hShown : t.day * 86400 +
        ((t.inDay / 3600 : Nat) * 3600
          + (t.inDay / 60 % 60 : Nat) * 60
          + (t.inDay % 60 : Nat)) - 0 = t.seconds := by omega
    rw [clock_of_lt hPlain]
    simp only [Clock.toZoned, Date.toDay_ofDay, if_neg hSecond,
      Nat.add_zero, hShown]
    rfl
  · have hLast := leap_inDay hProper hLeap
    have hShown : t.day * 86400 +
        ((t.inDay / 3600 : Nat) * 3600
          + (t.inDay / 60 % 60 : Nat) * 60 + (59 : Nat)) - 0 =
        t.seconds := by omega
    rw [clock_of_le hLeap]
    simp only [Clock.toZoned, Date.toDay_ofDay, hLast,
      Nat.reduceAdd, if_true, Nat.sub_add_cancel hLeap, hShown]
    rfl

end Instant

------------------------------------------------------------
-- Order of Readings
------------------------------------------------------------

/- The time of day is earlier: by hour, minute, second and
   nanosecond. -/
def Clock.earlier (a b : Clock) : Prop :=
  a.hour < b.hour ∨ a.hour = b.hour ∧
    (a.minute < b.minute ∨ a.minute = b.minute ∧
      (a.second < b.second ∨ a.second = b.second ∧
        a.nanos < b.nanos))

/- The reading is earlier: by date, then by time of day. -/
def Clock.before (a b : Clock) : Prop :=
  a.date.before b.date ∨ a.date = b.date ∧ a.earlier b

namespace Instant

variable {a b : Instant}

/- Within one day, later instants show later times. -/
theorem clock_earlier
    (ha : a.Proper)
    (hDay : a.day = b.day)
    (hBefore : a.before b) :
    a.utc.clock.earlier b.utc.clock := by
  have hSecondsA := a.seconds_eq
  have hSecondsB := b.seconds_eq
  have hLeapA := leap_inDay ha
  unfold before at hBefore
  rcases Nat.lt_or_ge a.nanos 1000000000 with hA | hA <;>
    rcases Nat.lt_or_ge b.nanos 1000000000 with hB | hB
  · rw [clock_of_lt hA, clock_of_lt hB]
    simp only [Clock.earlier]
    omega
  · rw [clock_of_lt hA, clock_of_le hB]
    simp only [Clock.earlier]
    omega
  · rw [clock_of_le hA, clock_of_lt hB]
    simp only [Clock.earlier]
    omega
  · rw [clock_of_le hA, clock_of_le hB]
    simp only [Clock.earlier]
    omega

/- Later instants have later readings. -/
theorem clock_before
    (ha : a.Proper)
    (hBefore : a.before b) :
    a.utc.clock.before b.utc.clock := by
  unfold Clock.before
  rw [date_clock, date_clock]
  by_cases hDay : a.day = b.day
  · rw [hDay]
    exact Or.inr ⟨rfl, clock_earlier ha hDay hBefore⟩
  · apply Or.inl
    apply Date.ofDay_before
    unfold before at hBefore
    unfold day at hDay ⊢
    omega

end Instant

end Factbase
