import Factbase.Proofs.Binary.ShortestDigits

/-
  Numbers of a format are told apart by what they stand for.

  A greater code stands for a greater number, and the number of
  a code rounds back to that code.  The intervals of two codes
  share at most an end, which belongs to the even one, so a
  decimal lies in the interval of one code only.

  Main declarations:
    * `Format.units_strictMono`
    * `Format.round_units`
    * `Format.rounds_unique`
    * `Binary.convert_self`
-/

namespace Factbase

namespace Format

variable {f : Format}
variable {code : Nat}

------------------------------------------------------------
-- Rounding What Needs None
------------------------------------------------------------

theorem units_strictMono (f : Format) : StrictMono f.units :=
  strictMono_nat_of_lt_succ fun code => by
    rw [units_succ]
    exact Nat.lt_add_of_pos_right (twoTo_pos _)

/- A number has the bits of a significand before its scale. -/
theorem log2_units
    (hPrecision : 0 < f.precision)
    (code : Nat) :
    Nat.log2 (f.units code) + 1 - f.precision = f.shift code := by
  have hBinade : f.binade = 2 ^ (f.precision - 1) := rfl
  rcases Nat.lt_or_ge code f.binade with hLow | hHigh
  · have hShift : f.shift code = 0 := by
      rw [shift, Nat.div_eq_of_lt hLow]
    rw [units_of_lt hLow, hShift]
    rcases Nat.eq_zero_or_pos code with rfl | hPositive
    · rw [Nat.log2_zero]
      omega
    · have hLog : Nat.log2 code < f.precision - 1 :=
        (Nat.log2_lt hPositive.ne').mpr hLow
      omega
  · have hRest := Nat.mod_lt code f.binade_pos
    have hLog : Nat.log2 (f.units code) =
        f.precision - 1 + f.shift code := by
      rw [units, significand, if_neg (Nat.not_lt.mpr hHigh),
        Nat.log2_eq_iff (Nat.mul_pos (by omega)
          (twoTo_pos _)).ne', twoTo_eq, hBinade]
      rw [hBinade] at hRest
      constructor
      · rw [Nat.pow_add]
        exact Nat.mul_le_mul_right _ (Nat.le_add_right _ _)
      · rw [Nat.add_right_comm, Nat.pow_add, Nat.pow_succ]
        apply Nat.mul_lt_mul_of_pos_right _
          (Nat.pow_pos (by decide))
        omega
    omega

/- The parts of a code are its binade and its significand. -/
theorem shift_mul_binade_add (f : Format) (code : Nat) :
    f.shift code * f.binade + f.significand code = code := by
  rcases Nat.lt_or_ge code f.binade with hLow | hHigh
  · rw [shift, significand, if_pos hLow, Nat.div_eq_of_lt hLow,
      Nat.zero_sub, Nat.zero_mul, Nat.zero_add]
  · have hPositive : 0 < code / f.binade :=
      Nat.div_pos hHigh f.binade_pos
    rw [shift, significand, if_neg (Nat.not_lt.mpr hHigh),
      ← Nat.add_assoc, ← Nat.succ_mul, Nat.succ_eq_add_one,
      Nat.sub_add_cancel hPositive, Nat.div_add_mod']

/- The number of a code rounds to the code. -/
theorem round_units
    (hPrecision : 0 < f.precision)
    (hNumber : code ≤ f.infinity) :
    f.round (f.units code) (twoTo f.depth) = code := by
  have hWhole : f.wholeUnits (f.units code) (twoTo f.depth) =
      f.units code :=
    Nat.mul_div_cancel _ (twoTo_pos _)
  have hDropped : f.dropped (f.units code) (twoTo f.depth) =
      f.shift code := by
    rw [dropped, hWhole, log2_units hPrecision]
  have hScaled : f.units code * twoTo f.depth =
      f.significand code
        * (twoTo f.depth * twoTo (f.shift code)) := by
    rw [units]
    ring
  have hStep : 0 < twoTo f.depth * twoTo (f.shift code) :=
    Nat.mul_pos (twoTo_pos _) (twoTo_pos _)
  have hFloor :
      f.floorCode (f.units code) (twoTo f.depth) = code := by
    rw [floorCode, hDropped, hScaled, Nat.mul_div_cancel _ hStep,
      shift_mul_binade_add]
  have hEven : ¬ f.RoundsUp (f.units code) (twoTo f.depth) := by
    rw [RoundsUp, hDropped, hScaled, Nat.mul_mod_left]
    omega
  rw [round_eq, if_neg hEven, hFloor, Nat.min_eq_right hNumber]

theorem round_le_infinity (f : Format) (num den : Nat) :
    f.round num den ≤ f.infinity :=
  Nat.min_le_left _ _

------------------------------------------------------------
-- Intervals
------------------------------------------------------------

/- Decimals of one value lie in the same intervals. -/
theorem rounds_congr
    {d e : Decimal}
    (hValue : d.num * e.den = e.num * d.den) :
    f.rounds code d = f.rounds code e := by
  have hDen : 0 < d.den := tenTo_pos _
  have hOther : 0 < e.den := tenTo_pos _
  have hNum : d.num * twoTo (f.depth + 1) * e.den =
      e.num * twoTo (f.depth + 1) * d.den := by
    rw [Nat.mul_right_comm, hValue, Nat.mul_right_comm]
  have hBelow : ∀ bound,
      (bound * d.den ≤ d.num * twoTo (f.depth + 1) ↔
        bound * e.den ≤ e.num * twoTo (f.depth + 1)) := by
    intro bound
    rw [← Nat.mul_le_mul_right_iff hOther, hNum,
      Nat.mul_right_comm, Nat.mul_le_mul_right_iff hDen]
  have hAbove : ∀ bound,
      (d.num * twoTo (f.depth + 1) ≤ bound * d.den ↔
        e.num * twoTo (f.depth + 1) ≤ bound * e.den) := by
    intro bound
    rw [← Nat.mul_le_mul_right_iff hOther, hNum,
      Nat.mul_right_comm bound, Nat.mul_le_mul_right_iff hDen]
  simp only [rounds, ← Nat.not_le, hBelow, hAbove]

/- Of two codes the intervals of both hold no decimal. -/
theorem not_rounds_of_lt
    {above : Nat}
    {d : Decimal}
    (hLess : code < above)
    (hRounds : f.rounds code d = true) :
    f.rounds above d = false := by
  have hDen : 0 < d.den := tenTo_pos _
  have hFirst : f.units code ≤ f.units (above - 1) :=
    f.units_mono (by omega)
  have hSecond : f.units (code + 1) ≤ f.units above :=
    f.units_mono hLess
  rw [Bool.eq_false_iff]
  intro hAbove
  have hEnds : f.lower above * d.den ≤ f.upper code * d.den :=
    Nat.le_trans (bounds_of_rounds hAbove).1
      (bounds_of_rounds hRounds).2
  have hEnd := Nat.le_of_mul_le_mul_right hEnds hDen
  rw [lower, upper] at hEnd
  -- the intervals touch, so the codes are neighbours
  have hNext : above = code + 1 :=
    f.units_strictMono.injective (by omega)
  subst hNext
  have hSame : f.lower (code + 1) = f.upper code := rfl
  simp only [rounds, hSame] at hRounds hAbove
  split_ifs at hRounds hAbove <;>
    simp only [Bool.and_eq_true, decide_eq_true_eq]
      at hRounds hAbove <;>
    omega

/- A value lies in the interval of one code only. -/
theorem rounds_unique
    {other : Nat}
    {d e : Decimal}
    (hValue : d.num * e.den = e.num * d.den)
    (hRounds : f.rounds code d = true)
    (hOther : f.rounds other e = true) : code = other := by
  rw [← rounds_congr hValue] at hOther
  rcases Nat.lt_trichotomy code other with hLess | hSame | hMore
  · rw [not_rounds_of_lt hLess hRounds] at hOther
    cases hOther
  · exact hSame
  · rw [not_rounds_of_lt hMore hOther] at hRounds
    cases hRounds

end Format

/- A number of a format is the nearest one of its own format. -/
theorem Binary.convert_self
    {f : Format}
    (hPrecision : 0 < f.precision)
    {x : Binary f}
    (hNumber : x.code ≤ f.infinity) : x.convert f = x := by
  have hNaN : x.isNaN = false := by
    simpa [isNaN] using hNumber
  rw [convert, hNaN, if_neg Bool.false_ne_true]
  split_ifs with hInfinite
  · rw [← hInfinite]
  · rw [Format.round_units hPrecision hNumber]

end Factbase
