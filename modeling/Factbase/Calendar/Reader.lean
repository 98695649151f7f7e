import Factbase.Binary.Powers
import Factbase.Calendar.Instant
import Factbase.Text.Bytes
import Factbase.Text.Digits
import Factbase.Text.Ranges

/-
  This file defines two readers of timestamps.  The strict one
  takes RFC 3339 text.  The relaxed one also takes parts of one
  digit, space between the parts, years with a sign, an offset
  without colon, and the word UTC.

  Key definitions include:
    * `Stamp.Fault`
    * `Stamp.strict`
    * `Stamp.relaxed`
-/

namespace Factbase.Stamp

------------------------------------------------------------
-- Faults
------------------------------------------------------------

/- Why a text is no timestamp. -/
inductive Fault where
  | invalid
  | tooShort
  | tooLong
  | outOfRange
  | impossible
deriving DecidableEq, Repr

/- The wording of a fault. -/
def Fault.message : Fault → String
  | .invalid => "input contains invalid characters"
  | .tooShort => "premature end of input"
  | .tooLong => "trailing input"
  | .outOfRange => "input is out of range"
  | .impossible => "no possible date and time matching input"

------------------------------------------------------------
-- Numbers
------------------------------------------------------------

/-
  A number of a least and a greatest count of digits.  More
  digits than the greatest count are left in the rest.
-/
def number
    (least most : Nat)
    (cs : List Char) : Except Fault (Nat × List Char) :=
  let ds := (cs.take most).takeWhile Char.isDigit
  if ds.length < least then
    .error (if byteLength cs < least then .tooShort else .invalid)
  else .ok (Digits.value ds, cs.drop ds.length)

/- A number that has to lie between two bounds. -/
def bounded
    (low high : Nat)
    (p : Except Fault (Nat × List Char)) :
    Except Fault (Nat × List Char) := do
  let (n, r) ← p
  if low ≤ n ∧ n ≤ high then .ok (n, r) else .error .outOfRange

/- One given character. -/
def literal
    (c : Char) : List Char → Except Fault (Unit × List Char)
  | [] => .error .tooShort
  | d :: r => if d = c then .ok ((), r) else .error .invalid

/-
  The digits of a fraction in nanoseconds.  Digits past the
  ninth are skipped.
-/
def fraction (cs : List Char) : Except Fault (Nat × List Char) := do
  let (_, r) ← number 1 9 cs
  let n := cs.length - r.length
  .ok (Digits.value (cs.take n) * tenTo (9 - n),
    r.dropWhile Char.isDigit)

/- A fraction after a point, zero where there is no point. -/
def optionalFraction : List Char → Except Fault (Nat × List Char)
  | '.' :: cs => fraction cs
  | cs => .ok (0, cs)

------------------------------------------------------------
-- Offsets
------------------------------------------------------------

/- Two digits of an offset. -/
def twoDigits
    (cs : List Char) : Except Fault ((Char × Char) × List Char) :=
  match cs with
  | a :: b :: r =>
      if a.isDigit ∧ b.isDigit then .ok ((a, b), r)
      else .error .invalid
  | cs =>
      .error (if byteLength cs < 2 then .tooShort else .invalid)

/- The sign of an offset, true for west of UTC. -/
def sign : List Char → Except Fault (Bool × List Char)
  | '+' :: r => .ok (false, r)
  | '-' :: r => .ok (true, r)
  | '\u2212' :: r => .ok (true, r)
  | [] => .error .tooShort
  | _ => .error .invalid

/-
  An offset in seconds: the letter Z, or a sign, hours and
  minutes with a separator that is passed in.
-/
def offsetSeconds
    (separator : List Char → Except Fault (Unit × List Char)) :
    List Char → Except Fault (Int × List Char)
  | 'Z' :: r => .ok (0, r)
  | 'z' :: r => .ok (0, r)
  | cs => do
      let (west, r) ← sign cs
      let ((a, b), r) ← twoDigits r
      let hours := Digits.value [a, b]
      let ((), r) ← separator r
      let ((a, b), r) ← twoDigits r
      let minutes := Digits.value [a, b]
      if 60 ≤ minutes then .error .outOfRange
      else
        let seconds : Int := hours * 3600 + minutes * 60
        .ok (if west then -seconds else seconds, r)

/-
  The instant of a clock reading: the date has to exist and to
  be supported, and so has its date in UTC.
-/
def resolve (c : Clock) : Except Fault Zoned :=
  let day := c.date.toDay
  if ¬ c.date.Valid ∨ day < Instant.firstDay
      ∨ Instant.lastDay < day then .error .outOfRange
  else if 86400 ≤ c.offset.natAbs then .error .outOfRange
  else if ¬ c.toZoned.instant.Representable then
    .error .impossible
  else .ok c.toZoned

------------------------------------------------------------
-- The strict form
------------------------------------------------------------

/- The separator between date and time. -/
def dateEnd : List Char → Except Fault (Unit × List Char)
  | 'T' :: r => .ok ((), r)
  | 't' :: r => .ok ((), r)
  | ' ' :: r => .ok ((), r)
  | [] => .error .tooShort
  | _ => .error .invalid

/- The clock reading of an RFC 3339 text. -/
def strictClock (cs : List Char) : Except Fault Clock := do
  let (year, r) ← number 4 4 cs
  let ((), r) ← literal '-' r
  let (month, r) ← bounded 1 12 (number 2 2 r)
  let ((), r) ← literal '-' r
  let (day, r) ← bounded 1 31 (number 2 2 r)
  let ((), r) ← dateEnd r
  let (hour, r) ← bounded 0 23 (number 2 2 r)
  let ((), r) ← literal ':' r
  let (minute, r) ← bounded 0 59 (number 2 2 r)
  let ((), r) ← literal ':' r
  let (second, r) ← bounded 0 60 (number 2 2 r)
  let (nanos, r) ← optionalFraction r
  let (offset, r) ← offsetSeconds (literal ':') r
  if 86400 ≤ offset.natAbs then .error .outOfRange
  else if r ≠ [] then .error .tooLong
  else
    .ok
      ⟨⟨year, month, day⟩, hour, minute, second, nanos, offset⟩

/- The instant of an RFC 3339 text. -/
def strict (cs : List Char) : Except Fault Zoned := do
  resolve (← strictClock cs)

------------------------------------------------------------
-- The relaxed form
------------------------------------------------------------

/- The greatest year that is counted. -/
def yearLimit : Nat :=
  2147483647

/- A year of up to four digits, or of any count with a sign. -/
def signedYear (cs : List Char) : Except Fault (Int × List Char) := do
  match trimLeft cs with
  | '-' :: r =>
      let (n, r) ← bounded 0 (yearLimit + 1) (number 1 r.length r)
      .ok (-(n : Int), r)
  | '+' :: r =>
      let (n, r) ← bounded 0 yearLimit (number 1 r.length r)
      .ok ((n : Int), r)
  | r =>
      let (n, r) ← number 1 4 r
      .ok ((n : Int), r)

/- A number of one or two digits after optional space. -/
def loose
    (low high : Nat)
    (cs : List Char) : Except Fault (Nat × List Char) :=
  bounded low high (number 1 2 (trimLeft cs))

/- Any run of colons and white space. -/
def looseColon (cs : List Char) : Except Fault (Unit × List Char) :=
  .ok ((), cs.dropWhile fun c => c = ':' || isBlank c)

/- The word UTC in any case, or an offset. -/
def looseOffset (cs : List Char) : Except Fault (Int × List Char) :=
  if (cs.take 3).map Char.toUpper = ['U', 'T', 'C'] then
    .ok (0, cs.drop 3)
  else offsetSeconds looseColon cs

/- The clock reading of a relaxed text. -/
def relaxedClock (cs : List Char) : Except Fault Clock := do
  let (year, r) ← signedYear cs
  let ((), r) ← literal '-' (trimLeft r)
  let (month, r) ← loose 1 12 r
  let ((), r) ← literal '-' (trimLeft r)
  let (day, r) ← loose 1 31 r
  let ((), r) ← dateEnd r
  let (hour, r) ← loose 0 23 r
  let ((), r) ← literal ':' (trimLeft r)
  let (minute, r) ← loose 0 59 r
  let ((), r) ← literal ':' (trimLeft r)
  let (second, r) ← loose 0 60 r
  let (nanos, r) ← optionalFraction r
  let (offset, r) ← looseOffset (trimLeft r)
  if trimLeft r ≠ [] then .error .tooLong
  else
    .ok
      ⟨⟨year, month, day⟩, hour, minute, second, nanos, offset⟩

/- The instant of a relaxed text. -/
def relaxed (cs : List Char) : Except Fault Zoned := do
  resolve (← relaxedClock cs)

end Factbase.Stamp
