import Factbase.Proofs.Binary.Exactness

/-
  Rounding gives the nearest number.

  A ratio lies between the code that it is rounded down to and
  the next one, whose numbers are one step apart.  The nearer of
  them has the ratio in its interval, so a decimal rounds to the
  one code in whose interval it lies, and a ratio between two
  numbers rounds to a code between theirs.

  Key definitions include:
    * `Format.nearest`

  Main declarations:
    * `Format.nearest_error`
    * `Format.round_of_rounds`
    * `Format.round_congr`
    * `Format.le_round`
    * `Format.round_le`
-/

namespace Factbase.Format

variable {f : Format}
variable {num den num' den' code : Nat}

------------------------------------------------------------
-- The Code Below a Ratio
------------------------------------------------------------

/- The significand of a ratio, once places are dropped. -/
def kept (f : Format) (num den : Nat) : Nat :=
  num * twoTo f.depth / (den * twoTo (f.dropped num den))

/- What is left of a ratio beside that significand. -/
def rest (f : Format) (num den : Nat) : Nat :=
  num * twoTo f.depth % (den * twoTo (f.dropped num den))

theorem floorCode_eq (f : Format) (num den : Nat) :
    f.floorCode num den =
      f.dropped num den * f.binade + f.kept num den :=
  rfl

/- The number below a ratio and the step to the next number. -/
theorem units_floorCode
    (hPrecision : 0 < f.precision)
    (num den : Nat) :
    f.units (f.floorCode num den) =
        f.kept num den * twoTo (f.dropped num den) ∧
      f.shift (f.floorCode num den) = f.dropped num den := by
  have hBounds : f.kept num den < 2 * f.binade ∧
      (0 < f.dropped num den → f.binade ≤ f.kept num den) :=
    significand_bounds hPrecision num den
  rw [floorCode_eq]
  generalize f.kept num den = kept at *
  generalize f.dropped num den = dropped at *
  rcases hBounds with ⟨hBelow, hFull⟩
  rcases Nat.lt_or_ge kept f.binade with hLow | hHigh
  · have hNone : dropped = 0 := by
      by_contra hSome
      exact absurd (hFull (Nat.pos_of_ne_zero hSome))
        (Nat.not_le.mpr hLow)
    have hOne : twoTo 0 = 1 := rfl
    rw [hNone, Nat.zero_mul, Nat.zero_add, units_of_lt hLow,
      shift, Nat.div_eq_of_lt hLow, hOne, Nat.mul_one]
    exact ⟨rfl, rfl⟩
  · have hRest : kept - f.binade < f.binade := by omega
    have hCode : dropped * f.binade + kept =
        f.binade * (dropped + 1) + (kept - f.binade) := by
      rw [Nat.mul_succ, Nat.mul_comm f.binade]
      omega
    rw [hCode, (units_eq dropped hRest).1,
      (units_eq dropped hRest).2, Nat.add_sub_cancel' hHigh]
    exact ⟨rfl, rfl⟩

/- A ratio is the number below it and a part of the step. -/
theorem scaled_eq
    (hPrecision : 0 < f.precision)
    (num den : Nat) :
    num * twoTo f.depth =
      f.units (f.floorCode num den) * den + f.rest num den := by
  rw [(units_floorCode hPrecision num den).1, Nat.mul_assoc,
    Nat.mul_comm (twoTo (f.dropped num den))]
  exact (Nat.div_add_mod' _ _).symm

/- The number above a ratio is one step on. -/
theorem units_floorCode_succ
    (hPrecision : 0 < f.precision)
    (num den : Nat) :
    f.units (f.floorCode num den + 1) * den =
      f.units (f.floorCode num den) * den
        + den * twoTo (f.dropped num den) := by
  rw [units_succ, (units_floorCode hPrecision num den).2,
    Nat.add_mul, Nat.mul_comm den]

theorem rest_lt (hDen : 0 < den) :
    f.rest num den < den * twoTo (f.dropped num den) :=
  Nat.mod_lt _ (Nat.mul_pos hDen (twoTo_pos _))

------------------------------------------------------------
-- The Nearest Code
------------------------------------------------------------

/- The code nearest to a ratio, however large that is. -/
def nearest (f : Format) (num den : Nat) : Nat :=
  if f.RoundsUp num den then f.floorCode num den + 1
  else f.floorCode num den

theorem round_eq_nearest (f : Format) (num den : Nat) :
    f.round num den = min f.infinity (f.nearest num den) :=
  rfl

theorem round_of_lt
    (hFinite : f.round num den < f.infinity) :
    f.round num den = f.nearest num den := by
  rw [round_eq_nearest] at hFinite ⊢
  omega

/- The nearer neighbour is taken, and of two as near the even one. -/
theorem nearest_cases (f : Format) (num den : Nat) :
    (f.nearest num den = f.floorCode num den ∧
      (2 * f.rest num den < den * twoTo (f.dropped num den) ∨
        2 * f.rest num den = den * twoTo (f.dropped num den) ∧
          f.kept num den % 2 = 0)) ∨
    (f.nearest num den = f.floorCode num den + 1 ∧
      (den * twoTo (f.dropped num den) < 2 * f.rest num den ∨
        2 * f.rest num den = den * twoTo (f.dropped num den) ∧
          f.kept num den % 2 = 1)) := by
  have hUp : f.RoundsUp num den ↔
      den * twoTo (f.dropped num den) < 2 * f.rest num den ∨
        den * twoTo (f.dropped num den) = 2 * f.rest num den ∧
          f.kept num den % 2 = 1 := Iff.rfl
  rw [nearest]
  split_ifs with hRoundsUp <;> rw [hUp] at hRoundsUp <;> omega

/- The nearest number is at most half a step away. -/
theorem nearest_error
    (hPrecision : 0 < f.precision)
    (hDen : 0 < den)
    (num : Nat) :
    2 * (f.units (f.nearest num den) * den) ≤
        2 * (num * twoTo f.depth)
          + den * twoTo (f.dropped num den) ∧
      2 * (num * twoTo f.depth) ≤
        2 * (f.units (f.nearest num den) * den)
          + den * twoTo (f.dropped num den) := by
  have hScaled := scaled_eq hPrecision num den
  have hNext := units_floorCode_succ hPrecision num den
  have hRest : f.rest num den < _ := rest_lt hDen
  rcases f.nearest_cases num den with
    ⟨hNearest, hLess⟩ | ⟨hNearest, hMore⟩ <;>
    rw [hNearest] <;> omega

/- A step is a small part of the ratio, or the least one. -/
theorem step_le
    (hPrecision : 0 < f.precision)
    (num den : Nat) :
    f.dropped num den = 0 ∨
      f.binade * (den * twoTo (f.dropped num den)) ≤
        num * twoTo f.depth := by
  rcases Nat.eq_zero_or_pos (f.dropped num den) with
    hNone | hSome
  · exact .inl hNone
  · refine .inr ?_
    have hFull : f.binade ≤ f.kept num den :=
      (significand_bounds hPrecision num den).2 hSome
    exact Nat.le_trans (Nat.mul_le_mul_right _ hFull)
      (Nat.div_mul_le_self _ _)

------------------------------------------------------------
-- Intervals
------------------------------------------------------------

/- Codes of a format are as odd as their significands. -/
theorem floorCode_mod_two
    (hPrecision : 2 ≤ f.precision)
    (num den : Nat) :
    f.floorCode num den % 2 = f.kept num den % 2 := by
  have hBinade : f.binade = 2 * 2 ^ (f.precision - 2) := by
    rw [binade, twoTo_eq, ← Nat.pow_succ']
    congr 1
    omega
  rw [floorCode_eq, hBinade, Nat.mul_left_comm,
    Nat.mul_add_mod]

/- A decimal lies in the interval of its nearest code. -/
theorem rounds_nearest
    (hPrecision : 2 ≤ f.precision)
    (d : Decimal) :
    f.rounds (f.nearest d.num d.den) d = true := by
  have hPositive : 0 < f.precision := by omega
  have hDen : 0 < d.den := tenTo_pos _
  have hTwice := twoTo_succ f.depth
  have hScaled := scaled_eq hPositive d.num d.den
  have hNext := units_floorCode_succ hPositive d.num d.den
  have hParity := floorCode_mod_two hPrecision d.num d.den
  have hRest : f.rest d.num d.den < _ := rest_lt hDen
  have hStep : 0 < d.den * twoTo (f.dropped d.num d.den) :=
    Nat.mul_pos hDen (twoTo_pos _)
  -- the number before a code is less, so its half way is too
  have hBefore : ∀ code, code % 2 = 1 →
      f.units (code - 1) * d.den < f.units code * d.den := by
    intro code hOdd
    exact Nat.mul_lt_mul_of_pos_right
      (f.units_strictMono (by omega)) hDen
  have hNotAfter : ∀ code,
      f.units (code - 1) * d.den ≤ f.units code * d.den :=
    fun code => Nat.mul_le_mul_right _
      (f.units_mono (Nat.sub_le _ _))
  simp only [rounds, hTwice, lower, upper, Nat.add_mul,
    Nat.mul_left_comm d.num 2]
  rcases f.nearest_cases d.num d.den with
    ⟨hNearest, hLess⟩ | ⟨hNearest, hMore⟩ <;> rw [hNearest]
  · have hBelow := hBefore (f.floorCode d.num d.den)
    have hBelow' := hNotAfter (f.floorCode d.num d.den)
    split_ifs <;>
      simp only [Bool.and_eq_true, decide_eq_true_eq] <;> omega
  · have hAbove := units_succ f (f.floorCode d.num d.den + 1)
    have hLast : f.units (f.floorCode d.num d.den + 1) * d.den ≤
        f.units (f.floorCode d.num d.den + 1 + 1) * d.den :=
      Nat.mul_le_mul_right _ (f.units_mono (Nat.le_succ _))
    simp only [Nat.add_sub_cancel]
    split_ifs <;>
      simp only [Bool.and_eq_true, decide_eq_true_eq] <;> omega

/- A decimal rounds to the code in whose interval it lies. -/
theorem round_of_rounds
    (hPrecision : 2 ≤ f.precision)
    {d : Decimal}
    (hNumber : code ≤ f.infinity)
    (hRounds : f.rounds code d = true) :
    f.round d.num d.den = code := by
  have hNearest : code = f.nearest d.num d.den :=
    rounds_unique rfl hRounds (rounds_nearest hPrecision d)
  rw [round_eq_nearest, ← hNearest, Nat.min_eq_right hNumber]

------------------------------------------------------------
-- Equal and Ordered Ratios
------------------------------------------------------------

/- A factor of both sides does not matter. -/
theorem round_mul_left
    {factor : Nat}
    (hFactor : 0 < factor)
    (num den : Nat) :
    f.round (factor * num) (factor * den) = f.round num den := by
  have hWhole : f.wholeUnits (factor * num) (factor * den) =
      f.wholeUnits num den := by
    rw [wholeUnits, wholeUnits, Nat.mul_assoc,
      Nat.mul_div_mul_left _ _ hFactor]
  have hDropped : f.dropped (factor * num) (factor * den) =
      f.dropped num den := by
    rw [dropped, dropped, hWhole]
  have hFloor : f.floorCode (factor * num) (factor * den) =
      f.floorCode num den := by
    rw [floorCode, floorCode, hDropped, Nat.mul_assoc,
      Nat.mul_assoc, Nat.mul_div_mul_left _ _ hFactor]
  have hUp : f.RoundsUp (factor * num) (factor * den) ↔
      f.RoundsUp num den := by
    simp only [RoundsUp, hDropped, Nat.mul_assoc,
      Nat.mul_div_mul_left _ _ hFactor, Nat.mul_mod_mul_left,
      Nat.mul_left_comm 2 factor, Nat.mul_lt_mul_left hFactor,
      Nat.mul_right_inj hFactor.ne']
  rw [round_eq, round_eq, hFloor]
  simp only [hUp]

/- Ratios of one value round to one code. -/
theorem round_congr
    (hDen : 0 < den)
    (hOther : 0 < den')
    (hValue : num * den' = num' * den) :
    f.round num den = f.round num' den' := by
  rw [← round_mul_left hOther num den,
    ← round_mul_left hDen num' den', Nat.mul_comm den' num,
    hValue, Nat.mul_comm num' den, Nat.mul_comm den' den]

theorem round_le_round
    (hPrecision : 0 < f.precision)
    (hDen : 0 < den)
    (hOther : 0 < den')
    (hLess : num * den' ≤ num' * den) :
    f.round num den ≤ f.round num' den' := by
  rw [← round_mul_left hOther num den,
    ← round_mul_left hDen num' den', Nat.mul_comm den' den,
    Nat.mul_comm den' num, Nat.mul_comm den num']
  exact round_mono hPrecision hLess

/- What is not below a number does not round below its code. -/
theorem le_round
    (hPrecision : 0 < f.precision)
    (hDen : 0 < den)
    (hNumber : code ≤ f.infinity)
    (hLess : f.units code * den ≤ num * twoTo f.depth) :
    code ≤ f.round num den := by
  have hRound := round_le_round hPrecision (twoTo_pos _) hDen hLess
  rwa [round_units hPrecision hNumber] at hRound

/- What is not above a number does not round above its code. -/
theorem round_le
    (hPrecision : 0 < f.precision)
    (hDen : 0 < den)
    (hLess : num * twoTo f.depth ≤ f.units code * den) :
    f.round num den ≤ code := by
  rcases Nat.lt_or_ge f.infinity code with hOver | hNumber
  · exact Nat.le_trans (round_le_infinity _ _ _) hOver.le
  · have hRound :=
      round_le_round hPrecision hDen (twoTo_pos _) hLess
    rwa [round_units hPrecision hNumber] at hRound

end Factbase.Format
