import Factbase.Proofs.Calendar.Texts
import Mathlib.Data.List.Basic

/-
  Timestamps on clocks that are not in UTC.

  A timestamp is rewritten by way of the text that its own clock
  shows.  That text rounds the offset to minutes and is read
  only if four digits hold the year on the clock, so the detour
  ends at the same instant for some clocks only.

  Key definitions include:
    * `Instant.Supported`
    * `Instant.settled`
    * `Zoned.here`
    * `Zoned.Supported`
    * `Zoned.Faithful`

  Main declarations:
    * `Stamp.offsetSeconds_zuluOffset`
    * `Stamp.strict_brief_of_fourDigits`
    * `Stamp.momentText_eq`
    * `Stamp.fixed_inj`
    * `Stamp.momentText_eq_fixed_iff`
-/

namespace Factbase

------------------------------------------------------------
-- Settled Instants
------------------------------------------------------------

namespace Instant

variable {t : Instant}

/-
  What the instants that there are all have.  A count of one
  second or more may follow any second, not only the last one of
  a minute.
-/
def Supported (t : Instant) : Prop :=
  t.Representable ∧ t.nanos < 2000000000

instance (t : Instant) : Decidable t.Supported := by
  unfold Supported
  infer_instance

/-
  The instant that a clock shows.  A count of one second or more
  is the next second, unless it is a leap second.
-/
def settled (t : Instant) : Instant :=
  if 1000000000 ≤ t.nanos ∧ t.seconds % 60 ≠ 59 then
    ⟨t.seconds + 1, t.nanos - 1000000000⟩
  else t

/- The next second is meant. -/
def Moves (t : Instant) : Prop :=
  1000000000 ≤ t.nanos ∧ t.seconds % 60 ≠ 59

/-
  A leap second in the middle of a minute settles on the next
  second.
-/
theorem settled_of_moves (hMoves : t.Moves) :
    t.settled = ⟨t.seconds + 1, t.nanos - 1000000000⟩ :=
  if_pos hMoves

/- Every other instant is settled. -/
theorem settled_of_not_moves (hMoves : ¬ t.Moves) :
    t.settled = t :=
  if_neg hMoves

/- Nothing that is settled moves again. -/
theorem proper_settled
    (hSupported : t.Representable)
    (hNanos : t.nanos < 2000000000) : t.settled.Proper := by
  unfold Representable at hSupported
  unfold settled Proper Representable
  split_ifs with hMoves
  · simp only
    omega
  · omega

/- A settled instant is one whose leap second ends a minute. -/
theorem settled_of_proper (hProper : t.Proper) : t.settled = t :=
  settled_of_not_moves fun hMoves => hMoves.2 (hProper.2.2 hMoves.1)

/- It is in the same minute, and so on the same day. -/
theorem day_settled (t : Instant) : t.settled.day = t.day := by
  unfold settled day
  split_ifs
  · simp only
    omega
  · rfl

/- A settled instant shows the same on a clock. -/
theorem clock_settled (hNanos : t.nanos < 2000000000) :
    t.settled.utc.clock = t.utc.clock := by
  unfold settled
  split_ifs with hMoves
  · rcases t with ⟨seconds, nanos⟩
    rcases hMoves with ⟨hLeap, hMoves⟩
    have hPlain : nanos - 1000000000 < 1000000000 :=
      Nat.sub_lt_left_of_lt_add hLeap hNanos
    replace hMoves : seconds % 60 ≠ 59 := hMoves
    have hDay : (seconds + 1) / 86400 = seconds / 86400 := by
      omega
    have hInDay : ((seconds + 1) % 86400).toNat =
        (seconds % 86400).toNat + 1 := by omega
    have hMinute : (seconds % 86400).toNat % 60 ≠ 59 := by omega
    rw [clock_of_le (t := ⟨seconds, nanos⟩) hLeap,
      clock_of_lt
        (t := ⟨seconds + 1, nanos - 1000000000⟩) hPlain]
    simp only [day, inDay, hDay, hInDay, Clock.mk.injEq,
      true_and, and_true]
    omega
  · rfl

/- A clock shows what is below a second, also in a leap second. -/
theorem clock_nanos (hNanos : t.nanos < 2000000000) :
    t.utc.clock.nanos < 1000000000 ∧
      t.utc.clock.nanos % 1000 = t.nanos % 1000 := by
  rcases Nat.lt_or_ge t.nanos 1000000000 with hPlain | hLeap
  · rw [clock_of_lt hPlain]
    exact ⟨hPlain, rfl⟩
  · rw [clock_of_le hLeap]
    simp only
    omega

end Instant

------------------------------------------------------------
-- Clocks Elsewhere
------------------------------------------------------------

/- The offset of a reading only moves its instant. -/
theorem Clock.toZoned_offset
    (c : Clock)
    (offset : Int) :
    ({ c with offset := offset } : Clock).toZoned =
      ⟨⟨c.toZoned.instant.seconds + c.offset - offset,
        c.toZoned.instant.nanos⟩, offset⟩ := by
  simp only [toZoned, Zoned.mk.injEq, Instant.mk.injEq, and_true]
  omega

namespace Zoned

variable {z : Zoned}

/- The instant at which a clock in UTC shows the same. -/
def here (z : Zoned) : Instant :=
  ⟨z.instant.seconds + z.offset, z.instant.nanos⟩

/- What the timestamps that there are all have. -/
def Supported (z : Zoned) : Prop :=
  z.instant.Representable ∧ z.instant.nanos < 2000000000 ∧
    z.offset.natAbs < 86400

instance (z : Zoned) : Decidable z.Supported := by
  unfold Supported
  infer_instance

/- A clock shows its own time as if it were in UTC. -/
theorem clock_eq (z : Zoned) :
    z.clock = { z.here.utc.clock with offset := z.offset } := by
  simp only [clock, here, Instant.utc, Int.add_zero]
  rfl

end Zoned

------------------------------------------------------------
-- Written Offsets
------------------------------------------------------------

namespace Stamp

variable {rest : List Char}
variable {n : Nat}

/- An offset as it is written, in whole minutes. -/
def roundedOffset (offset : Int) : Int :=
  let minutes := (offset.natAbs + 30) / 60
  if offset < 0 then -(minutes * 60 : Nat) else (minutes * 60 : Nat)

/- A rounded offset is one of whole minutes. -/
theorem roundedOffset_mod (offset : Int) :
    roundedOffset offset % 60 = 0 := by
  simp only [roundedOffset]
  split_ifs <;> omega

/- Only offsets of whole minutes stay as they are. -/
theorem roundedOffset_eq_iff (offset : Int) :
    roundedOffset offset = offset ↔ offset % 60 = 0 := by
  simp only [roundedOffset]
  split_ifs <;> omega

/- Two digits of an offset are read back. -/
theorem twoDigits_padded
    (rest : List Char)
    (hBound : n < 100) :
    ∃ a b, twoDigits (Digits.padded 2 n ++ rest) =
        .ok ((a, b), rest) ∧ Digits.value [a, b] = n := by
  have hLength := Digits.length_padded (by decide : 0 < 2) hBound
  rcases List.length_eq_two.mp hLength with ⟨a, b, hDigits⟩
  have hAll : ∀ c ∈ [a, b], c.isDigit = true := by
    rw [← hDigits]
    exact fun _ => Digits.isDigit_of_mem_padded
  refine ⟨a, b, ?_, ?_⟩
  · simp only [List.forall_mem_cons] at hAll
    rw [hDigits, List.cons_append, List.cons_append, twoDigits,
      if_pos ⟨hAll.1, hAll.2.1⟩, List.nil_append]
  · rw [← hDigits, Digits.value_padded]

/- A separator that takes the colon before a digit. -/
def TakesColon
    (separator : List Char → Except Fault (Unit × List Char)) :
    Prop :=
  ∀ d ds, d.isDigit = true →
    separator (':' :: d :: ds) = .ok ((), d :: ds)

/- The strict separator is a colon. -/
theorem takesColon_literal : TakesColon (literal ':') :=
  fun _ _ _ => literal_cons

/- The relaxed one may be a colon. -/
theorem takesColon_looseColon : TakesColon looseColon := by
  intro d ds hDigit
  have hColon : d ≠ ':' := by
    rintro rfl
    exact absurd hDigit (by decide)
  simp [looseColon, hColon, isBlank_of_isDigit hDigit]

/- Hours and minutes after a sign are read in seconds. -/
theorem offsetSeconds_signed
    {separator : List Char → Except Fault (Unit × List Char)}
    (hColon : TakesColon separator)
    {minutes : Nat}
    (west : Bool)
    (hBound : minutes < 6000) :
    offsetSeconds separator
        ((if west then '-' else '+') ::
          Digits.padded 2 (minutes / 60) ++
            ':' :: Digits.padded 2 (minutes % 60)) =
      .ok (if west then -(minutes * 60 : Nat)
        else (minutes * 60 : Nat), []) := by
  rcases twoDigits_padded (n := minutes / 60)
      (':' :: Digits.padded 2 (minutes % 60)) (by omega) with
    ⟨a, b, hFirst, hHours⟩
  rcases twoDigits_padded (n := minutes % 60) [] (by omega) with
    ⟨a', b', hSecond, hMinutes⟩
  rw [List.append_nil] at hSecond
  have hSeparator : separator
      (':' :: Digits.padded 2 (minutes % 60)) =
        .ok ((), Digits.padded 2 (minutes % 60)) := by
    rcases exists_padded_eq_cons (by decide : 0 < 2)
        (minutes % 60) with ⟨d, ds, hCons, hDigit⟩
    rw [hCons, hColon d ds hDigit]
  have hBelow : ¬ 60 ≤ minutes % 60 := by omega
  have hSum : ((minutes / 60 : Nat) : Int) * 3600 +
      ((minutes % 60 : Nat) : Int) * 60 =
        ((minutes * 60 : Nat) : Int) := by omega
  cases west
  all_goals
    change (twoDigits (Digits.padded 2 (minutes / 60) ++
      ':' :: Digits.padded 2 (minutes % 60)) >>= _) = _
    simp only [hFirst, bind, Except.bind, hHours, hSeparator,
      hSecond, hMinutes, if_neg hBelow, hSum]

/- A written offset is read as it was rounded. -/
theorem offsetSeconds_zuluOffset
    {separator : List Char → Except Fault (Unit × List Char)}
    (hColon : TakesColon separator)
    {offset : Int}
    (hBound : offset.natAbs < 86400) :
    offsetSeconds separator (zuluOffset offset) =
      .ok (roundedOffset offset, []) := by
  by_cases hZero : offset = 0
  · subst hZero
    rfl
  · have hSmall : (offset.natAbs + 30) / 60 < 6000 := by omega
    have hSigned := offsetSeconds_signed hColon
      (decide (offset < 0)) hSmall
    simp only [decide_eq_true_eq] at hSigned
    rw [zuluOffset, if_neg hZero]
    exact hSigned

------------------------------------------------------------
-- Reading Clocks
------------------------------------------------------------

/- A year of four digits is supported, one day aside or not. -/
theorem day_of_fourDigits
    {t : Instant}
    (hYear : FourDigits t.utc.clock.date.year) :
    Instant.firstDay + 1 ≤ t.day ∧
      t.day + 1 ≤ Instant.lastDay := by
  have hValid := Date.valid_ofDay t.day
  have hDay := Date.toDay_ofDay t.day
  rw [Instant.date_clock] at hYear
  rcases hYear with ⟨hLow, hHigh⟩
  have hFirst := Date.toDay_lt_toDay
    (by decide : Date.Valid ⟨-1, 1, 1⟩) hValid
    (Or.inl (by simp only; omega))
  have hLast := Date.toDay_lt_toDay hValid
    (by decide : Date.Valid ⟨10000, 1, 1⟩)
    (Or.inl (by simp only; omega))
  rw [hDay] at hFirst hLast
  have hStart : Date.toDay ⟨-1, 1, 1⟩ = -719893 := by decide
  have hEnd : Date.toDay ⟨10000, 1, 1⟩ = 2932897 := by decide
  have hFirstDay : Instant.firstDay = -96465292 := by decide
  have hLastDay : Instant.lastDay = 95026236 := by decide
  omega

/- An offset starts with a mark that ends any fraction. -/
theorem exists_zuluOffset_eq_cons (offset : Int) :
    ∃ mark tail, zuluOffset offset = mark :: tail ∧
      mark.isDigit = false ∧ mark ≠ '.' := by
  unfold zuluOffset Stamp.offset
  split_ifs
  · exact ⟨'Z', _, rfl, by decide, by decide⟩
  · exact ⟨'-', _, rfl, by decide, by decide⟩
  · exact ⟨'+', _, rfl, by decide, by decide⟩

end Stamp

namespace Zoned

/- The instant that the text of a timestamp is read as. -/
def reread (z : Zoned) : Instant :=
  ⟨z.here.settled.seconds - Stamp.roundedOffset z.offset,
    z.here.settled.nanos⟩

end Zoned

namespace Stamp

variable {z : Zoned}

/- The short text of a timestamp, part by part. -/
theorem brief_eq (z : Zoned) :
    brief z =
      dateTime z.here.utc.clock ++
        (neededFraction z.here.utc.clock.nanos ++
          zuluOffset z.offset) := by
  rw [brief, Zoned.clock_eq, List.append_assoc]
  rfl

/- What a clock shows is settled, if its year has four digits. -/
theorem proper_here
    (hNanos : z.here.nanos < 2000000000)
    (hYear : FourDigits z.here.utc.clock.date.year) :
    z.here.settled.Proper := by
  have hDays := day_of_fourDigits hYear
  apply Instant.proper_settled _ hNanos
  unfold Instant.Representable
  unfold Instant.day at hDays
  omega

/- What is read back is a proper instant. -/
theorem proper_reread
    (hNanos : z.here.nanos < 2000000000)
    (hYear : FourDigits z.here.utc.clock.date.year)
    (hOffset : (roundedOffset z.offset).natAbs < 86400) :
    z.reread.Proper := by
  have hHere := proper_here hNanos hYear
  have hDays := day_of_fourDigits hYear
  have hMinutes := roundedOffset_mod z.offset
  rw [← Instant.day_settled] at hDays
  unfold Instant.day at hDays
  refine ⟨?_, hHere.2.1, ?_⟩
  · simp only [Instant.Representable, Zoned.reread]
    omega
  · intro hLeap
    have hLast := hHere.2.2 hLeap
    simp only [Zoned.reread]
    omega

/- What a clock shows, with its offset as it is written. -/
theorem toZoned_rounded
    (hNanos : z.here.nanos < 2000000000)
    (hProper : z.here.settled.Proper) :
    ({ z.here.utc.clock with
        offset := roundedOffset z.offset } : Clock).toZoned =
      ⟨z.reread, roundedOffset z.offset⟩ := by
  have hZoned := Instant.toZoned_clock hProper
  have hZero : z.here.utc.clock.offset = 0 := rfl
  rw [Instant.clock_settled hNanos] at hZoned
  rw [Clock.toZoned_offset, hZoned, hZero, Int.add_zero]
  rfl

/-
  The text of a clock whose year has four digits is read, unless
  the offset is rounded to a whole day.
-/
theorem strict_brief_of_fourDigits
    (hSupported : z.Supported)
    (hYear : FourDigits z.here.utc.clock.date.year) :
    strict (brief z) =
      if 86400 ≤ (roundedOffset z.offset).natAbs then
        .error .outOfRange
      else .ok ⟨z.reread, roundedOffset z.offset⟩ := by
  rcases hSupported with ⟨_, hNanos, hOffset⟩
  replace hNanos : z.here.nanos < 2000000000 := hNanos
  have hProper := proper_here hNanos hYear
  have hLegible := legible_clock hProper
  rw [Instant.clock_settled hNanos] at hLegible
  have hFraction : optionalFraction
      (neededFraction z.here.utc.clock.nanos ++
        zuluOffset z.offset) =
      .ok (z.here.utc.clock.nanos, zuluOffset z.offset) := by
    rcases exists_zuluOffset_eq_cons z.offset with
      ⟨mark, tail, hZone, hMark, hPoint⟩
    rw [hZone]
    exact optionalFraction_needed hLegible.2.2.2.2.1 hMark
      hPoint
  rw [strict, brief_eq, strictClock_dateTime hLegible hYear
    hFraction (offsetSeconds_zuluOffset takesColon_literal
      hOffset)]
  split_ifs with hWhole
  · rfl
  · have hDay : z.here.utc.clock.date.toDay = z.here.day := by
      rw [Instant.date_clock, Date.toDay_ofDay]
    have hDays := day_of_fourDigits hYear
    have hSupported := (proper_reread hNanos hYear
      (Nat.not_le.mp hWhole)).1
    change resolve _ = _
    rw [resolve, toZoned_rounded hNanos hProper, if_neg, if_neg hWhole,
      if_neg (not_not_intro hSupported)]
    simp only [hDay, hLegible.1, not_true_eq_false, false_or]
    omega

/- What is stored for a timestamp, whatever its clock shows. -/
theorem momentText_eq (hSupported : z.Supported) :
    momentText z =
      if FourDigits z.here.utc.clock.date.year ∧
          (roundedOffset z.offset).natAbs < 86400 then
        fixed z.reread
      else brief z := by
  rw [momentText, canonicalText]
  by_cases hYear : FourDigits z.here.utc.clock.date.year
  · rw [strict_brief_of_fourDigits hSupported hYear]
    by_cases hWhole : 86400 ≤ (roundedOffset z.offset).natAbs
    · rw [if_pos hWhole,
        if_neg fun hBoth => absurd hBoth.2 (Nat.not_lt.mpr hWhole)]
    · rw [if_neg hWhole,
        if_pos ⟨hYear, Nat.not_le.mp hWhole⟩]
  · rw [if_neg fun hBoth => hYear hBoth.1]
    rw [brief_eq]
    rcases strict_dateTime_signed hYear with ⟨fault, hFault⟩
    rw [hFault]

------------------------------------------------------------
-- The Same Text
------------------------------------------------------------

variable {a b t : Instant}

/- Different instants have different texts. -/
theorem fixed_inj
    (ha : a.Proper)
    (hb : b.Proper) : fixed a = fixed b ↔ a = b := by
  constructor
  · intro hText
    have hRead := relaxed_fixed ha
    rw [hText, relaxed_fixed hb] at hRead
    injection hRead with hSame
    exact (congrArg Zoned.instant hSame).symm
  · rintro rfl
    rfl

/- A timestamp is stored as the instant that a clock shows. -/
theorem momentText_settled (hNanos : t.nanos < 2000000000) :
    momentText t.settled.utc = momentText t.utc := by
  rw [momentText, momentText, brief, brief,
    Instant.clock_settled hNanos]

/- An instant is stored as what it settles on. -/
theorem fixed_settled (hNanos : t.nanos < 2000000000) :
    fixed t.settled = fixed t := by
  rw [fixed_eq, fixed_eq, Instant.clock_settled hNanos]

/- The detour ends where it started if it moves by whole minutes. -/
theorem reread_eq_iff (z : Zoned) :
    z.reread = z.instant.settled ↔ z.offset % 60 = 0 := by
  have hMinutes := roundedOffset_mod z.offset
  rw [← roundedOffset_eq_iff, Zoned.reread]
  rcases z with ⟨⟨seconds, nanos⟩, offset⟩
  by_cases hHere : (Zoned.here ⟨⟨seconds, nanos⟩, offset⟩).Moves
  · rw [Instant.settled_of_moves hHere]
    by_cases hUtc : (Instant.mk seconds nanos).Moves
    · rw [Instant.settled_of_moves hUtc, Instant.mk.injEq]
      simp only [Zoned.here, and_true]
      omega
    · rw [Instant.settled_of_not_moves hUtc, Instant.mk.injEq]
      simp only [Zoned.here, Instant.Moves] at *
      omega
  · rw [Instant.settled_of_not_moves hHere]
    by_cases hUtc : (Instant.mk seconds nanos).Moves
    · rw [Instant.settled_of_moves hUtc, Instant.mk.injEq]
      simp only [Zoned.here, Instant.Moves] at *
      omega
    · rw [Instant.settled_of_not_moves hUtc, Instant.mk.injEq]
      simp only [Zoned.here, and_true]
      omega

/- All nine digits are needed only below a microsecond. -/
theorem neededFraction_eq_full_iff
    (hBound : n < 1000000000) :
    neededFraction n = fullFraction n ↔ n % 1000 ≠ 0 := by
  have hNine := Digits.length_padded (by decide : 0 < 9) hBound
  unfold neededFraction fullFraction
  split_ifs with hZero hMillis hMicros
  · simp [hZero]
  · have hThree := Digits.length_padded (by decide : 0 < 3)
      (n := n / 1000000) (by omega)
    constructor
    · intro hSame
      have hLength := congrArg List.length hSame
      simp only [List.length_cons, hThree, hNine] at hLength
      omega
    · omega
  · have hSix := Digits.length_padded (by decide : 0 < 6)
      (n := n / 1000) (by omega)
    constructor
    · intro hSame
      have hLength := congrArg List.length hSame
      simp only [List.length_cons, hSix, hNine] at hLength
      omega
    · omega
  · exact iff_of_true rfl hMicros

/- Only the offset of UTC is written with a letter. -/
theorem zulu_not_mem_zuluOffset
    {offset : Int}
    (hOffset : offset ≠ 0) : 'Z' ∉ zuluOffset offset := by
  have hPadded : ∀ width n, 'Z' ∉ Digits.padded width n := by
    intro width n hMember
    exact absurd (Digits.isDigit_of_mem_padded hMember)
      (by decide)
  rw [zuluOffset, if_neg hOffset, Stamp.offset]
  split_ifs <;> simp [hPadded]

/- A text as it is shown is rarely that in UTC. -/
theorem brief_eq_fixed_iff (hNanos : z.here.nanos < 2000000000) :
    brief z = fixed z.instant ↔
      z.offset = 0 ∧ z.instant.nanos % 1000 ≠ 0 := by
  rw [brief_eq, fixed_eq]
  by_cases hOffset : z.offset = 0
  · have hHere : z.here = z.instant := by
      simp [Zoned.here, hOffset]
    have hZulu : zuluOffset z.offset = ['Z'] := by
      rw [hOffset]
      rfl
    have hShown := Instant.clock_nanos (t := z.instant) hNanos
    rw [hHere, hZulu, List.append_cancel_left_eq,
      List.append_cancel_right_eq,
      neededFraction_eq_full_iff hShown.1, hShown.2]
    exact (and_iff_right hOffset).symm
  · constructor
    · intro hText
      exfalso
      apply zulu_not_mem_zuluOffset hOffset
      rcases exists_zuluOffset_eq_cons z.offset with
        ⟨mark, tail, hZone, _, _⟩
      have hLast : (mark :: tail).getLast? = some 'Z' := by
        simpa [hZone, List.getLast?_append] using
          congrArg List.getLast? hText
      rw [hZone]
      exact List.mem_of_getLast? hLast
    · exact fun hBoth => absurd hBoth.1 hOffset

end Stamp

namespace Zoned

variable {z : Zoned}

/-
  A timestamp whose stored text is that of its instant in UTC:
  the clock shows a year of four digits and the offset is one of
  whole minutes, or no other text is read than the one stored.
-/
def Faithful (z : Zoned) : Prop :=
  if Stamp.FourDigits z.clock.date.year then z.offset % 60 = 0
  else z.offset = 0 ∧ z.instant.nanos % 1000 ≠ 0

instance (z : Zoned) : Decidable z.Faithful := by
  unfold Faithful
  infer_instance

end Zoned

namespace Stamp

variable {z : Zoned}

/- Exactly the faithful timestamps are stored as their instant. -/
theorem momentText_eq_fixed_iff (hSupported : z.Supported) :
    momentText z = fixed z.instant ↔ z.Faithful := by
  have hNanos : z.here.nanos < 2000000000 := hSupported.2.1
  have hSettled := Instant.proper_settled hSupported.1 hNanos
  have hClock : z.clock.date = z.here.utc.clock.date := by
    rw [Zoned.clock_eq]
  rw [momentText_eq hSupported, Zoned.Faithful, hClock]
  by_cases hYear : FourDigits z.here.utc.clock.date.year
  · rw [if_pos hYear]
    by_cases hWhole : (roundedOffset z.offset).natAbs < 86400
    · rw [if_pos ⟨hYear, hWhole⟩,
        ← fixed_settled (t := z.instant) hNanos,
        fixed_inj (proper_reread hNanos hYear hWhole) hSettled,
        reread_eq_iff]
    · rw [if_neg fun hBoth => hWhole hBoth.2,
        brief_eq_fixed_iff hNanos]
      have hOffset := hSupported.2.2
      have hRounded := roundedOffset_eq_iff z.offset
      have hZero : roundedOffset 0 = 0 := rfl
      constructor
      · rintro ⟨hNone, _⟩
        rw [hNone] at hWhole
        exact absurd (by decide) hWhole
      · intro hMinutes
        rw [hRounded.mpr hMinutes] at hWhole
        exact absurd hOffset hWhole
  · rw [if_neg hYear, if_neg fun hBoth => hYear hBoth.1,
      brief_eq_fixed_iff hNanos]

end Stamp

end Factbase
