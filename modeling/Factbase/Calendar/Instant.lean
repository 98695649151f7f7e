import Factbase.Calendar.Date

/-
  This file defines points in time, alone and as read on a
  clock some seconds east of UTC.

  A leap second is the last second of a minute with a
  nanosecond count of one second or more.

  Key definitions include:
    * `Instant`
    * `Instant.Representable`
    * `Zoned`
    * `Clock`
    * `Zoned.clock`
    * `Clock.toZoned`
-/

namespace Factbase

------------------------------------------------------------
-- Instants
------------------------------------------------------------

/-
  Seconds since the start of 1970 in UTC, and nanoseconds
  past the start of that second.
-/
structure Instant where
  seconds : Int
  nanos : Nat
deriving DecidableEq, Repr

namespace Instant

/- Chronological order, leap seconds included. -/
def before (a b : Instant) : Prop :=
  a.seconds < b.seconds ∨
    (a.seconds = b.seconds ∧ a.nanos < b.nanos)

instance (a b : Instant) : Decidable (a.before b) := by
  unfold before
  infer_instance

def firstDay : Int :=
  Date.toDay ⟨-262143, 1, 1⟩

/- The day number of the last supported date. -/
def lastDay : Int :=
  Date.toDay ⟨262142, 12, 31⟩

/- The date of the instant in UTC is supported. -/
def Representable (t : Instant) : Prop :=
  firstDay ≤ t.seconds / 86400 ∧ t.seconds / 86400 ≤ lastDay

instance (t : Instant) : Decidable t.Representable := by
  unfold Representable
  infer_instance

end Instant

------------------------------------------------------------
-- Instants with an offset
------------------------------------------------------------

/- An instant seen on a clock some seconds east of UTC. -/
structure Zoned where
  instant : Instant
  offset : Int
deriving DecidableEq, Repr

/- An instant seen on a clock in UTC. -/
def Instant.utc (t : Instant) : Zoned :=
  ⟨t, 0⟩

------------------------------------------------------------
-- Clocks
------------------------------------------------------------

/-
  What a clock and a calendar show: a date, a time of day and
  an offset.  The second is 60 in a leap second.
-/
structure Clock where
  date : Date
  hour : Nat
  minute : Nat
  second : Nat
  nanos : Nat
  offset : Int
deriving DecidableEq, Repr

/- What a clock shows at an instant. -/
def Zoned.clock (z : Zoned) : Clock :=
  let here := z.instant.seconds + z.offset
  let inDay := (here % 86400).toNat
  let leap := 1000000000 ≤ z.instant.nanos
  { date := Date.ofDay (here / 86400),
    hour := inDay / 3600,
    minute := inDay / 60 % 60,
    second := inDay % 60 + (if leap then 1 else 0),
    nanos := z.instant.nanos - (if leap then 1000000000 else 0),
    offset := z.offset }

/- The instant at which a clock shows a given time. -/
def Clock.toZoned (c : Clock) : Zoned :=
  let leap := c.second = 60
  let inDay : Int :=
    c.hour * 3600 + c.minute * 60 + (if leap then 59 else c.second)
  { instant :=
      { seconds := c.date.toDay * 86400 + inDay - c.offset,
        nanos := c.nanos + (if leap then 1000000000 else 0) },
    offset := c.offset }

end Factbase
