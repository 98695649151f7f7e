import Factbase.Proofs.Calendar.Offsets
import Factbase.Proofs.Data.Shapes

/-
  Timestamps that are written and read back.

  A timestamp is stored in one of two forms, by what its own
  clock shows: as the instant in UTC, or as the clock has it.
  The relaxed reader takes both, and finds the same instant in
  them.

  Main declarations:
    * `Stamp.relaxed_brief`
    * `Stamp.exists_relaxed_momentText`
    * `decode_encode_moment`
-/

namespace Factbase

------------------------------------------------------------
-- Clocks Read Back
------------------------------------------------------------

namespace Stamp

variable {z : Zoned}

/- Any written offset is read by the relaxed reader. -/
theorem looseOffset_zuluOffset
    {offset : Int}
    (hBound : offset.natAbs < 86400) :
    looseOffset (zuluOffset offset) =
      .ok (roundedOffset offset, []) := by
  have hNotWord : (zuluOffset offset).take 3 |>.map Char.toUpper
      |> (· ≠ ['U', 'T', 'C']) := by
    unfold zuluOffset Stamp.offset
    split_ifs <;> simp
  rw [looseOffset, if_neg hNotWord,
    offsetSeconds_zuluOffset takesColon_looseColon hBound]

/- No white space comes before an offset. -/
theorem trimLeft_zuluOffset (offset : Int) :
    trimLeft (zuluOffset offset) = zuluOffset offset := by
  unfold zuluOffset Stamp.offset
  split_ifs <;> exact trimLeft_cons (by decide)

/-
  What a clock shows is read back, if its offset is one of whole
  minutes and its date is supported.
-/
theorem relaxed_brief
    (hSupported : z.Supported)
    (hMinutes : z.offset % 60 = 0)
    (hHere : z.here.Representable) :
    relaxed (brief z) = .ok ⟨z.instant.settled, z.offset⟩ := by
  rcases hSupported with ⟨hInstant, hNanos, hOffset⟩
  replace hNanos : z.here.nanos < 2000000000 := hNanos
  have hProper := Instant.proper_settled hHere hNanos
  have hLegible := legible_clock hProper
  have hYear := natAbs_year_le hProper
  rw [Instant.clock_settled hNanos] at hLegible hYear
  have hRounded := (roundedOffset_eq_iff z.offset).mpr hMinutes
  have hReread := (reread_eq_iff z).mpr hMinutes
  have hFraction : optionalFraction
      (neededFraction z.here.utc.clock.nanos ++
        zuluOffset z.offset) =
      .ok (z.here.utc.clock.nanos, zuluOffset z.offset) := by
    rcases exists_zuluOffset_eq_cons z.offset with
      ⟨mark, tail, hZone, hMark, hPoint⟩
    rw [hZone]
    exact optionalFraction_needed hLegible.2.2.2.2.1 hMark
      hPoint
  have hZone : looseOffset (trimLeft (zuluOffset z.offset)) =
      .ok (roundedOffset z.offset, []) := by
    rw [trimLeft_zuluOffset, looseOffset_zuluOffset hOffset]
  have hDay : z.here.utc.clock.date.toDay = z.here.day := by
    rw [Instant.date_clock, Date.toDay_ofDay]
  have hSettled := (Instant.proper_settled hInstant hNanos).1
  rw [relaxed, brief_eq,
    relaxedClock_dateTime hLegible hYear hFraction hZone]
  change resolve _ = _
  rw [resolve, toZoned_rounded hNanos hProper, hReread, hRounded,
    if_neg, if_neg (Nat.not_le.mpr hOffset),
    if_neg (not_not_intro hSettled)]
  unfold Instant.Representable at hHere
  change Instant.firstDay ≤ z.here.day ∧
    z.here.day ≤ Instant.lastDay at hHere
  simp only [hDay, hLegible.1, not_true_eq_false, false_or]
  omega

/- What is stored for a timestamp is read as its instant. -/
theorem exists_relaxed_momentText
    (hSupported : z.Supported)
    (hMinutes : z.offset % 60 = 0)
    (hHere : z.here.Representable) :
    ∃ offset, relaxed (momentText z) =
      .ok ⟨z.instant.settled, offset⟩ := by
  rw [momentText_eq hSupported]
  split_ifs with hFixed
  · rw [(reread_eq_iff z).mpr hMinutes]
    exact ⟨0, relaxed_fixed
      (Instant.proper_settled hSupported.1 hSupported.2.1)⟩
  · exact ⟨z.offset, relaxed_brief hSupported hMinutes hHere⟩

end Stamp

------------------------------------------------------------
-- Timestamps Read Back
------------------------------------------------------------

theorem Zoned.encode_moment (z : Zoned) :
    encode (.moment z) =
      .ok (.ofList (Json.quoted (momentText z))) := by
  simp only [encode, Datum.encode, Datum.encodeChars]
  rfl

/- A string that is a timestamp decodes as its instant. -/
theorem decode_instant_quoted
    {cs : List Char}
    {z : Zoned}
    (hRelaxed : Stamp.relaxed cs = .ok z) :
    decode .instant (.ofList (Json.quoted cs)) =
      .ok z.instant := by
  refine decode_eq_ok_iff.mpr ⟨[], ?_, rfl⟩
  have hFront := Json.Doc.readFront_quoted [] cs
  rw [List.append_nil] at hFront
  rw [String.toList_ofList]
  simp only [Shape.instant, Json.readMoment, hFront, bind,
    Except.bind, String.toList_ofList, hRelaxed]
  rfl

/-
  Every timestamp whose offset is one of whole minutes, and for
  which its own clock shows a supported date, is encoded and
  decodes as the instant that its clock shows.  That is the same
  instant, leap second included: only a count of one second or
  more that does not belong to the last second of a minute is no
  leap second on a clock, and is read as the second after.
-/
theorem decode_encode_moment
    {z : Zoned}
    (hSupported : z.Supported)
    (hMinutes : z.offset % 60 = 0)
    (hHere : z.here.Representable) :
    ∃ text, encode (.moment z) = .ok text ∧
      decode .instant text = .ok z.instant.settled ∧
      (z.instant.Proper →
        decode .instant text = .ok z.instant) := by
  rcases Stamp.exists_relaxed_momentText hSupported hMinutes
      hHere with ⟨offset, hRelaxed⟩
  have hDecode := decode_instant_quoted hRelaxed
  refine ⟨_, z.encode_moment, hDecode, ?_⟩
  intro hProper
  rw [hDecode, Instant.settled_of_proper hProper]

/-
  A count of one second and a half from noon is no leap second,
  and is read as half a second in the second after noon.
-/
theorem decode_encode_moment_midminute :
    let odd : Zoned := ⟨⟨1546516800, 1500000000⟩, 0⟩
    let shown : Instant := ⟨1546516801, 500000000⟩
    odd.Supported ∧ odd.offset % 60 = 0 ∧
      odd.here.Representable ∧ shown ≠ odd.instant ∧
      ∃ text, encode (.moment odd) = .ok text ∧
        decode .instant text = .ok shown := by
  intro odd shown
  have hOdd : odd.Supported ∧ odd.offset % 60 = 0 ∧
      odd.here.Representable := by decide
  have hShown : odd.instant.settled = shown := by decide
  rcases Stamp.exists_relaxed_momentText hOdd.1 hOdd.2.1 hOdd.2.2
    with ⟨offset, hRelaxed⟩
  refine ⟨hOdd.1, hOdd.2.1, hOdd.2.2, by decide, _,
    odd.encode_moment, ?_⟩
  rw [decode_instant_quoted hRelaxed, hShown]

/-
  A leap second on a clock that is in the next year already, a
  year of five digits, and the first second of all in UTC.
-/
theorem decode_encode_moment_years :
    let leap : Zoned := ⟨⟨253402300799, 1500000000⟩, 3600⟩
    let first : Zoned := ⟨⟨Instant.firstDay * 86400, 1⟩, 0⟩
    (leap.Supported ∧ leap.offset % 60 = 0 ∧
      leap.here.Representable ∧
      ∃ text, encode (.moment leap) = .ok text ∧
        decode .instant text = .ok leap.instant) ∧
    first.Supported ∧ first.offset % 60 = 0 ∧
      first.here.Representable ∧
      ∃ text, encode (.moment first) = .ok text ∧
        decode .instant text = .ok first.instant := by
  intro leap first
  have hLeap : leap.Supported ∧ leap.offset % 60 = 0 ∧
      leap.here.Representable := by decide
  have hFirst : first.Supported ∧ first.offset % 60 = 0 ∧
      first.here.Representable := by decide
  rcases decode_encode_moment hLeap.1 hLeap.2.1 hLeap.2.2 with
    ⟨text, hEncode, _, hSame⟩
  rcases decode_encode_moment hFirst.1 hFirst.2.1 hFirst.2.2 with
    ⟨text', hEncode', _, hSame'⟩
  exact ⟨⟨hLeap.1, hLeap.2.1, hLeap.2.2, text, hEncode,
      hSame (by decide)⟩,
    hFirst.1, hFirst.2.1, hFirst.2.2, text', hEncode',
      hSame' (by decide)⟩

end Factbase
