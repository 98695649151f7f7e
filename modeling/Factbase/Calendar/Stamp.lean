import Factbase.Calendar.Instant
import Factbase.Text.Digits

/-
  This file defines how timestamps are written.

  Key definitions include:
    * `Stamp.fixed`
    * `Stamp.brief`
    * `Stamp.shown`
-/

namespace Factbase.Stamp

------------------------------------------------------------
-- Parts
------------------------------------------------------------

/-
  A year in four digits, or with a sign when four digits do
  not hold it.
-/
def year (y : Int) : List Char :=
  if 0 ≤ y ∧ y ≤ 9999 then Digits.padded 4 y.toNat
  else (if y < 0 then '-' else '+') :: Digits.padded 4 y.natAbs

/- A fraction of a second in three, six or nine digits, as needed. -/
def neededFraction (nanos : Nat) : List Char :=
  if nanos = 0 then []
  else if nanos % 1000000 = 0 then
    '.' :: Digits.padded 3 (nanos / 1000000)
  else if nanos % 1000 = 0 then
    '.' :: Digits.padded 6 (nanos / 1000)
  else '.' :: Digits.padded 9 nanos

/- A fraction of a second in nine digits. -/
def fullFraction (nanos : Nat) : List Char :=
  '.' :: Digits.padded 9 nanos

/- An offset in hours and minutes, rounded to the nearest minute. -/
def offset (seconds : Int) : List Char :=
  let minutes := (seconds.natAbs + 30) / 60
  (if seconds < 0 then '-' else '+') ::
    Digits.padded 2 (minutes / 60) ++
    ':' :: Digits.padded 2 (minutes % 60)

/- An offset, with the letter Z for none. -/
def zuluOffset (seconds : Int) : List Char :=
  if seconds = 0 then ['Z'] else offset seconds

/- A date and a time of day down to the second. -/
def dateTime (c : Clock) : List Char :=
  year c.date.year ++
    '-' :: Digits.padded 2 c.date.month ++
    '-' :: Digits.padded 2 c.date.day ++
    'T' :: Digits.padded 2 c.hour ++
    ':' :: Digits.padded 2 c.minute ++
    ':' :: Digits.padded 2 c.second

------------------------------------------------------------
-- Timestamps
------------------------------------------------------------

/- In UTC with nine fraction digits, so that all years of four
   digits give texts of one length. -/
def fixed (t : Instant) : List Char :=
  let c := t.utc.clock
  dateTime c ++ fullFraction c.nanos ++ ['Z']

/- With the offset and the fraction digits that are needed. -/
def brief (z : Zoned) : List Char :=
  let c := z.clock
  dateTime c ++ neededFraction c.nanos ++ zuluOffset c.offset

/- Like `brief`, but with an offset in digits also in UTC. -/
def shown (z : Zoned) : List Char :=
  let c := z.clock
  dateTime c ++ neededFraction c.nanos ++ offset c.offset

end Factbase.Stamp
