import Factbase.Proofs.Json.FloatReading

/-
  How far the reader goes off when it scales a significand.

  It rounds the significand, the power of ten and their product
  or quotient, and for very small numbers one more quotient.
  The operands of the last rounding are close to the numeral,
  and exact if the significand has 53 bits and the power is one
  of the first that need no rounding.

  Key definitions include:
    * `Json.IsCloseTo`

  Main declarations:
    * `Json.isCloseTo_of_scale`
    * `Json.scale_exact`
-/

namespace Factbase

namespace Json

open Format

variable {x y z : Binary64}
variable {n digits : Nat}
variable {exponent : Int}

------------------------------------------------------------
-- Whole Numbers
------------------------------------------------------------

theorem precision_double : double.precision = 53 :=
  rfl

theorem depth_double : double.depth = 1074 :=
  rfl

/- The greatest power of ten that is used is finite. -/
theorem round_tenTo_lt :
    double.round (tenTo 308) 1 < double.infinity := by
  decide +kernel

/- So is every whole number up to it. -/
theorem round_whole_lt (hBound : n ≤ tenTo 308) :
    double.round n 1 < double.infinity :=
  Nat.lt_of_le_of_lt (round_mono (by decide) hBound)
    round_tenTo_lt

/- Every significand of 64 bits is smaller than that. -/
theorem le_tenTo_of_lt_word (hBound : n < 2 ^ 64) :
    n ≤ tenTo 308 :=
  Nat.le_trans (Nat.le_of_lt hBound)
    (twoTo_le_tenTo (by decide : 30103 * 64 ≤ 100000 * 308))

/- So it is a finite float. -/
theorem isFinite_ofNat_of_lt_word (hBound : n < 2 ^ 64) :
    (.ofNat n : Binary64).isFinite = true :=
  decide_eq_true (round_whole_lt (le_tenTo_of_lt_word hBound))

/- The part of a number that one rounding may take or add. -/
theorem one_div_twoTo_precision :
    (1 / twoTo double.precision : ℚ) = 1 / 2 ^ 53 := by
  rw [cast_twoTo, precision_double]

/- A whole number is off by one rounding. -/
theorem near_ofNat
    (hPositive : 0 < n)
    (hBound : n ≤ tenTo 308) :
    Near (1 / 2 ^ 53)
      (double.value (.ofNat n : Binary64).code) n := by
  have hOne : (1 : ℚ) ≤ n := Nat.one_le_cast.mpr hPositive
  have hLeast :
      (1 / twoTo (double.depth + 1) : ℚ) ≤
        1 / 2 ^ 53 * (n / (1 : Nat)) := by
    have hPowers : (twoTo double.precision : ℚ) ≤
        twoTo (double.depth + 1) :=
      Nat.cast_le.mpr (twoTo_mono (by decide))
    rw [Nat.cast_one, div_one, ← one_div_twoTo_precision]
    refine le_trans (one_div_le_one_div_of_le
      (cast_twoTo_pos _) hPowers) ?_
    exact le_mul_of_one_le_right
      (one_div_pos.mpr (cast_twoTo_pos _)).le hOne
  have hNear := near_round (by decide) Nat.one_pos
    (round_whole_lt hBound) (1 / 2 ^ 53)
    one_div_twoTo_precision.le hLeast
  rwa [Nat.cast_one, div_one] at hNear

/- A whole number that the format has needs no rounding. -/
theorem value_ofNat_of_dvd
    (hBound : n ≤ tenTo 308)
    (hExact : twoTo (double.dropped n 1) ∣ n * twoTo 1074) :
    double.value (.ofNat n : Binary64).code = n := by
  have hScaled := scaled_eq (f := double) (by decide) n 1
  have hRest : double.rest n 1 = 0 := by
    rw [rest, Nat.one_mul]
    exact Nat.mod_eq_zero_of_dvd hExact
  have hNearest : double.nearest n 1 = double.floorCode n 1 := by
    have hStep := twoTo_pos (double.dropped n 1)
    rcases double.nearest_cases n 1 with
      ⟨hNearest, _⟩ | ⟨_, hMore⟩
    · exact hNearest
    · omega
  have hRound : (.ofNat n : Binary64).code =
      double.floorCode n 1 := by
    rw [← hNearest]
    exact round_of_lt (round_whole_lt hBound)
  rw [hRest, Nat.mul_one, Nat.add_zero] at hScaled
  rw [hRound, value, ← hScaled, Nat.cast_mul,
    mul_div_cancel_right₀ _ (cast_twoTo_pos _).ne']

theorem twoTo_dvd
    {m k : Nat}
    (hLess : m ≤ k) : twoTo m ∣ twoTo k :=
  Nat.pow_dvd_pow 2 hLess

/- A significand of 53 bits is exact. -/
theorem value_ofNat_of_le (hBits : n ≤ 2 ^ 53) :
    double.value (.ofNat n : Binary64).code = n := by
  refine value_ofNat_of_dvd
    (le_tenTo_of_lt_word (by omega)) ?_
  rcases Nat.eq_zero_or_pos n with rfl | hPositive
  · rw [Nat.zero_mul]
    exact Nat.dvd_zero _
  rcases Nat.lt_or_eq_of_le hBits with hLess | rfl
  · refine Nat.dvd_mul_left_of_dvd (twoTo_dvd ?_) n
    have hLog : ∀ k, Nat.log2 (n * twoTo k) < 53 + k := by
      intro k
      rw [Nat.log2_lt (Nat.mul_pos hPositive
        (twoTo_pos _)).ne', Nat.pow_add]
      exact Nat.mul_lt_mul_of_pos_right hLess (twoTo_pos k)
    have hDepth := hLog 1074
    rw [dropped, wholeUnits, Nat.div_one, precision_double,
      depth_double]
    generalize Nat.log2 (n * twoTo 1074) = log at hDepth ⊢
    omega
  · decide +kernel

/- The powers of ten up to the 22nd lose no places. -/
theorem dropped_tenTo : ∀ e ≤ 22,
    twoTo (double.dropped (tenTo e) 1) ∣
      tenTo e * twoTo 1074 := by
  decide +kernel

/- The first powers of ten are exact. -/
theorem value_tenTo_of_le
    {e : Nat}
    (hFirst : e ≤ 22) :
    double.value (.ofNat (tenTo e) : Binary64).code = tenTo e :=
  value_ofNat_of_dvd (tenTo_mono (by omega))
    (dropped_tenTo e hFirst)

------------------------------------------------------------
-- Products and Quotients
------------------------------------------------------------

/- A product is rounded from that of the numbers. -/
theorem exists_ratio_mul (x y : Binary64) :
    ∃ num den, 0 < den ∧
      (x.mul y).code = double.round num den ∧
      (num / den : ℚ) =
        double.value x.code * double.value y.code := by
  refine ⟨_, _, twoTo_pos _, rfl, ?_⟩
  have hDouble : twoTo (2 * double.depth) =
      twoTo double.depth * twoTo double.depth := by
    rw [twoTo_eq, twoTo_eq, ← Nat.pow_add, Nat.two_mul]
  rw [hDouble, value, value, div_mul_div_comm, Nat.cast_mul,
    Nat.cast_mul]

/- A quotient is rounded from that of the numbers. -/
theorem exists_ratio_div
    (x : Binary64)
    (hDivisor : 0 < y.code) :
    ∃ num den, 0 < den ∧
      (x.div y).code = double.round num den ∧
      (num / den : ℚ) =
        double.value x.code / double.value y.code := by
  refine ⟨_, _, units_pos hDivisor, rfl, ?_⟩
  rw [value, value,
    div_div_div_cancel_right₀ (cast_twoTo_pos _).ne']

/- Division by one or more does not lead to a greater number. -/
theorem code_div_le
    (x : Binary64)
    (hDivisor : 1 ≤ double.value y.code) :
    (x.div y).code ≤ x.code := by
  have hPositive : 0 < y.code := by
    refine Nat.pos_of_ne_zero fun hZero => ?_
    rw [hZero, value_zero] at hDivisor
    linarith
  rcases exists_ratio_div x hPositive with
    ⟨num, den, hDen, hCode, hRatio⟩
  rw [hCode]
  refine round_le_of_le_value (by decide) hDen ?_
  rw [hRatio]
  exact div_le_self (double.value_nonneg _) hDivisor

------------------------------------------------------------
-- Scaling
------------------------------------------------------------

/-
  A code is rounded from a ratio that is close to a rational, by
  a part of it or by half of the least positive number.
-/
def IsCloseTo (code : Nat) (v : ℚ) : Prop :=
  ∃ num den : Nat, 0 < den ∧ code = double.round num den ∧
    (Near (5 / 2 ^ 54) (num / den) v ∨
      |(num / den : ℚ) - v| ≤ 1 / twoTo 1075)

/- What is near to a positive number is not zero. -/
theorem code_pos_of_near
    {part v : ℚ}
    {code : Nat}
    (hNear : Near part (double.value code) v)
    (hPart : part < 1)
    (hPositive : 0 < v) : 0 < code := by
  refine Nat.pos_of_ne_zero ?_
  rintro rfl
  have hLow := hNear.bounds.1
  rw [value_zero] at hLow
  exact absurd (mul_pos (sub_pos.mpr hPart) hPositive)
    (not_lt.mpr hLow)

/- A power of ten is off by half a place at most. -/
theorem near_tenTo
    {e : Nat}
    (hBound : e ≤ 308) :
    Near (1 / 2 ^ 53)
      (double.value (.ofNat (tenTo e) : Binary64).code)
      (tenTo e) :=
  near_ofNat (tenTo_pos e) (tenTo_mono hBound)

/- No power of ten is rounded to zero. -/
theorem code_tenTo_pos
    {e : Nat}
    (hBound : e ≤ 308) :
    0 < (.ofNat (tenTo e) : Binary64).code :=
  code_pos_of_near (near_tenTo hBound) (by norm_num)
    (cast_tenTo_pos e)

/-
  None is rounded below one, so divisions make no number
  greater.
-/
theorem one_le_value_tenTo
    {e : Nat}
    (hBound : e ≤ 308) :
    1 ≤ double.value (.ofNat (tenTo e) : Binary64).code := by
  rcases Nat.eq_zero_or_pos e with rfl | hSome
  · rw [value_tenTo_of_le (by decide)]
    exact Nat.one_le_cast.mpr (tenTo_pos 0)
  · have hTen : (10 : ℚ) ≤ tenTo e := by
      have hPowers : tenTo 1 ≤ tenTo e := tenTo_mono hSome
      exact_mod_cast hPowers
    have hLow := (near_tenTo hBound).bounds.1
    linarith

/- So a division by one of them stays finite. -/
theorem isFinite_div_tenTo
    (hFinite : x.isFinite = true)
    {e : Nat}
    (hBound : e ≤ 308) :
    (x.div (.ofNat (tenTo e))).isFinite = true := by
  simp only [Binary.isFinite, decide_eq_true_eq] at hFinite ⊢
  exact Nat.lt_of_le_of_lt
    (code_div_le x (one_le_value_tenTo hBound)) hFinite

/- Scaling gives finite numbers only. -/
theorem isFinite_scale
    {fuel : Nat}
    (hFinite : x.isFinite = true)
    (hScale : scale x exponent fuel = some z) :
    z.isFinite = true := by
  induction fuel generalizing x exponent with
  | zero =>
      rw [scale, Option.some.injEq] at hScale
      rwa [← hScale]
  | succ fuel ih =>
      simp only [scale] at hScale
      split_ifs at hScale with hNear hUp hProduct hZero
      · cases hScale
        exact hProduct
      · cases hScale
        exact isFinite_div_tenTo hFinite hNear
      · cases hScale
        exact hFinite
      · exact ih (isFinite_div_tenTo hFinite (Nat.le_refl 308))
          hScale

section Significands

variable (hPositive : 0 < digits)
variable (hWord : digits < 2 ^ 64)
include hPositive hWord

/- A product with a power of ten is rounded close to it. -/
theorem isCloseTo_mul
    {e : Nat}
    (hBound : e ≤ 308) :
    IsCloseTo
      ((.ofNat digits : Binary64).mul (.ofNat (tenTo e))).code
      (digits * tenTo e) := by
  rcases exists_ratio_mul (.ofNat digits) (.ofNat (tenTo e)) with
    ⟨num, den, hDen, hCode, hRatio⟩
  refine ⟨num, den, hDen, hCode, .inl ?_⟩
  have hDigits := near_ofNat hPositive (le_tenTo_of_lt_word hWord)
  have hProduct := hDigits.mul (near_tenTo hBound) (by norm_num)
    (Nat.cast_nonneg _) (Nat.cast_nonneg _)
  rw [hRatio]
  exact hProduct.mono (by norm_num)
    (mul_nonneg (Nat.cast_nonneg _) (Nat.cast_nonneg _))

/- So is a quotient by one. -/
theorem isCloseTo_div
    {e : Nat}
    (hBound : e ≤ 308) :
    IsCloseTo
      ((.ofNat digits : Binary64).div (.ofNat (tenTo e))).code
      (digits / tenTo e) := by
  rcases exists_ratio_div (.ofNat digits) (code_tenTo_pos hBound)
    with ⟨num, den, hDen, hCode, hRatio⟩
  refine ⟨num, den, hDen, hCode, .inl ?_⟩
  have hDigits := near_ofNat hPositive (le_tenTo_of_lt_word hWord)
  have hQuotient := hDigits.div (near_tenTo hBound) (by norm_num)
    (by norm_num) (Nat.cast_nonneg _) (cast_tenTo_pos e)
  rw [hRatio]
  exact hQuotient.mono (by norm_num)
    (div_nonneg (Nat.cast_nonneg _) (Nat.cast_nonneg _))

end Significands

------------------------------------------------------------
-- Two Quotients
------------------------------------------------------------

/- The greatest power of ten is closer to its number than others. -/
theorem units_tenTo_308 :
    2 ^ 55 * double.units (double.round (tenTo 308) 1) ≤
        (2 ^ 55 + 1) * (tenTo 308 * twoTo 1074) ∧
      (2 ^ 55 - 1) * (tenTo 308 * twoTo 1074) ≤
        2 ^ 55 * double.units (double.round (tenTo 308) 1) := by
  decide +kernel

/- The greatest power of ten is rounded better than most. -/
theorem near_tenTo_308 :
    Near (1 / 2 ^ 55)
      (double.value (.ofNat (tenTo 308) : Binary64).code)
      (tenTo 308) := by
  rcases units_tenTo_308 with ⟨hHigh, hLow⟩
  have hUnit := cast_twoTo_pos 1074
  have hHigh' : (_ : ℚ) ≤ _ := Nat.cast_le.mpr hHigh
  have hLow' : (_ : ℚ) ≤ _ := Nat.cast_le.mpr hLow
  have hCode : (.ofNat (tenTo 308) : Binary64).code =
      double.round (tenTo 308) 1 := rfl
  push_cast at hHigh' hLow'
  rw [hCode]
  refine Near.of_bounds ?_ ?_
  · rw [value, depth_double, le_div_iff₀ hUnit]
    linarith
  · rw [value, depth_double, div_le_iff₀ hUnit]
    linarith

/- It is not far above the power of two that is below it. -/
theorem tenTo_308_le :
    10 * (2 ^ 53 * tenTo 308) ≤ 27 * twoTo 1075 := by
  decide +kernel

/- The least positive number is small beside a first quotient. -/
theorem least_le
    {significand : ℚ}
    {t : ℚ}
    (hLarge : 3 * (1 / 2 ^ 53) ≤ t * significand) :
    1 / twoTo 1075 ≤ t * (9 / 10 * (significand / tenTo 308)) := by
  have hSize : (_ : ℚ) ≤ _ := Nat.cast_le.mpr tenTo_308_le
  have hTen := cast_tenTo_pos 308
  have hTwo := cast_twoTo_pos 1075
  push_cast at hSize
  have hFactor : t * (9 / 10 * (significand / tenTo 308)) =
      9 / 10 * (t * significand) / tenTo 308 := by ring
  rw [hFactor, div_le_div_iff₀ hTwo hTen]
  have hGrow := mul_le_mul_of_nonneg_right hLarge hTwo.le
  linarith

/- The first quotient, where it is not too coarse. -/
theorem near_first_div
    (hPositive : 0 < digits)
    (hWord : digits < 2 ^ 64)
    (t : ℚ)
    (hPart : 1 / 2 ^ 53 ≤ t)
    (hLarge : 3 * (1 / 2 ^ 53) ≤ t * digits) :
    Near (t + 11 / 2 ^ 56 + t * (11 / 2 ^ 56))
      (double.value ((.ofNat digits : Binary64).div
        (.ofNat (tenTo 308))).code)
      (digits / tenTo 308) := by
  rcases exists_ratio_div (.ofNat digits)
      (code_tenTo_pos (Nat.le_refl 308)) with
    ⟨num, den, hDen, hCode, hRatio⟩
  have hDigits := near_ofNat hPositive (le_tenTo_of_lt_word hWord)
  have hPart' : 0 ≤ t := le_trans (by norm_num) hPart
  have hExact : (0 : ℚ) ≤ digits / tenTo 308 :=
    div_nonneg (Nat.cast_nonneg _) (Nat.cast_nonneg _)
  have hRatioNear :
      Near (11 / 2 ^ 56) (num / den) (digits / tenTo 308) := by
    rw [hRatio]
    exact (hDigits.div near_tenTo_308 (by norm_num) (by norm_num)
      (Nat.cast_nonneg _) (cast_tenTo_pos _)).mono
        (by norm_num) hExact
  have hFinite : double.round num den < double.infinity := by
    rw [← hCode]
    exact Nat.lt_of_le_of_lt
      (code_div_le _ (one_le_value_tenTo (Nat.le_refl 308)))
      (round_whole_lt (le_tenTo_of_lt_word hWord))
  have hLeast : (1 / twoTo (double.depth + 1) : ℚ) ≤
      t * (num / den) := by
    refine le_trans (least_le hLarge)
      (mul_le_mul_of_nonneg_left ?_ hPart')
    refine le_trans ?_ hRatioNear.bounds.1
    exact mul_le_mul_of_nonneg_right (by norm_num) hExact
  have hRound := near_round (by decide) hDen hFinite t
    (one_div_twoTo_precision.le.trans hPart) hLeast
  rw [hCode]
  exact hRound.trans hRatioNear hPart'

/- What is scaled down by more than that is tiny. -/
theorem tiny_of_coarse
    {e : Nat}
    (hSome : 0 < e)
    (hWord : digits < 2 ^ 64)
    (hCoarse : digits < 3 ∨ 22 < e) :
    (digits : ℚ) / tenTo 308 / tenTo e ≤ 1 / twoTo 1025 := by
  have hSize : digits * twoTo 1025 ≤ tenTo 308 * tenTo e := by
    rw [← tenTo_add]
    rcases hCoarse with hFew | hFar
    · have hTwo : digits ≤ 2 ^ 1 := Nat.le_of_lt_succ hFew
      exact (mul_twoTo_le hTwo 1025).trans
        (twoTo_le_tenTo (by omega))
    · exact (mul_twoTo_le hWord.le 1025).trans
        (twoTo_le_tenTo (by omega))
  have hTen := cast_tenTo_pos 308
  have hTen' := cast_tenTo_pos e
  rw [div_div, div_le_div_iff₀ (mul_pos hTen hTen')
    (cast_twoTo_pos _), one_mul]
  exact_mod_cast hSize

/- Two quotients by powers of ten are rounded close to theirs. -/
theorem isCloseTo_div_div
    (hPositive : 0 < digits)
    (hWord : digits < 2 ^ 64)
    {e : Nat}
    (hSome : 0 < e)
    (hBound : e ≤ 308) :
    IsCloseTo
      (((.ofNat digits : Binary64).div
        (.ofNat (tenTo 308))).div (.ofNat (tenTo e))).code
      (digits / tenTo 308 / tenTo e) := by
  rcases exists_ratio_div
      ((.ofNat digits : Binary64).div (.ofNat (tenTo 308)))
      (code_tenTo_pos hBound) with
    ⟨num, den, hDen, hCode, hRatio⟩
  refine ⟨num, den, hDen, hCode, ?_⟩
  have hDigits : (1 : ℚ) ≤ digits := Nat.one_le_cast.mpr hPositive
  have hFirst : (0 : ℚ) ≤ digits / tenTo 308 :=
    div_nonneg (Nat.cast_nonneg _) (Nat.cast_nonneg _)
  have hExact : (0 : ℚ) ≤ digits / tenTo 308 / tenTo e :=
    div_nonneg hFirst (Nat.cast_nonneg _)
  rw [hRatio]
  by_cases hFine : 3 ≤ digits ∧ e ≤ 22
  · -- the second power of ten is exact
    have hThree : (3 : ℚ) ≤ digits := by exact_mod_cast hFine.1
    have hNear := near_first_div hPositive hWord (1 / 2 ^ 53)
      le_rfl (by linarith)
    rw [value_tenTo_of_le hFine.2]
    exact .inl ((hNear.div (Near.refl _) (by norm_num)
      (by norm_num) hFirst (cast_tenTo_pos e)).mono
        (by norm_num) hExact)
  · -- the number is below the normal ones
    have hCoarse : digits < 3 ∨ 22 < e := by omega
    have hNear := near_first_div hPositive hWord (3 * (1 / 2 ^ 53))
      (by norm_num) (by linarith)
    have hBoth := (hNear.div (near_tenTo hBound) (by norm_num)
      (by norm_num) hFirst (cast_tenTo_pos e)).mono
        (show _ ≤ 1 / 2 ^ 50 by norm_num) hExact
    have hPowers : twoTo 1075 = twoTo 50 * twoTo 1025 :=
      twoTo_add 50 1025
    refine .inr (le_trans hBoth ?_)
    rw [hPowers, Nat.cast_mul, cast_twoTo 50,
      ← one_div_mul_one_div]
    exact mul_le_mul_of_nonneg_left
      (tiny_of_coarse hSome hWord hCoarse) (by norm_num)

/- A scaled significand is close to what it should be. -/
theorem isCloseTo_of_scale
    (hPositive : 0 < digits)
    (hWord : digits < 2 ^ 64)
    (hLow : -616 ≤ exponent)
    (hScale : scale (.ofNat digits) exponent 4 = some z) :
    IsCloseTo z.code (digits * 10 ^ exponent) := by
  have hDigits : 0 < (.ofNat digits : Binary64).code :=
    code_pos_of_near
      (near_ofNat hPositive (le_tenTo_of_lt_word hWord))
      (by norm_num) (Nat.cast_pos.mpr hPositive)
  have hNonzero :
      ¬ (.ofNat digits : Binary64).isZero = true := by
    simpa [Binary.isZero] using hDigits.ne'
  rw [ten_zpow_eq]
  rcases Nat.lt_or_ge 308 exponent.natAbs with hFar | hNear
  · -- only a quotient is left to be formed
    have hDown : ¬ 0 ≤ exponent := by
      intro hUp
      rw [scale, if_neg (Nat.not_le.mpr hFar), if_neg hNonzero,
        if_pos hUp] at hScale
      cases hScale
    have hSecond : (exponent + 308).natAbs ≤ 308 := by omega
    have hDown' : ¬ 0 ≤ exponent + 308 := by omega
    rw [scale, if_neg (Nat.not_le.mpr hFar), if_neg hNonzero,
      if_neg hDown, scale, if_pos hSecond, if_neg hDown',
      Option.some.injEq] at hScale
    have hSplit : (-exponent).toNat =
        308 + (exponent + 308).natAbs := by omega
    have hPower : tenTo (-exponent).toNat =
        tenTo 308 * tenTo (exponent + 308).natAbs := by
      rw [hSplit, tenTo_add]
    have hOne : tenTo exponent.toNat = 1 := by
      rw [Int.toNat_of_nonpos (by omega)]
      rfl
    rw [hPower, hOne, Nat.cast_one, Nat.cast_mul, mul_one_div,
      ← div_div, ← hScale]
    exact isCloseTo_div_div hPositive hWord (by omega) hSecond
  · have hOne : tenTo 0 = 1 := rfl
    simp only [scale, if_pos hNear] at hScale
    split_ifs at hScale with hUp hFinite
    · have hWhole : exponent.toNat = exponent.natAbs ∧
          (-exponent).toNat = 0 := by omega
      rw [hWhole.1, hWhole.2, hOne, Nat.cast_one, div_one,
        ← Option.some.inj hScale]
      exact isCloseTo_mul hPositive hWord hNear
    · have hPart : exponent.toNat = 0 ∧
          (-exponent).toNat = exponent.natAbs := by omega
      rw [hPart.1, hPart.2, hOne, Nat.cast_one, mul_one_div,
        ← Option.some.inj hScale]
      exact isCloseTo_div hPositive hWord hNear

------------------------------------------------------------
-- Exact Operands
------------------------------------------------------------

/- Exact operands leave one rounding, that of the decimal. -/
theorem scale_exact
    {d : Decimal}
    (hBits : d.digits ≤ 2 ^ 53)
    (hFirst : d.exponent.natAbs ≤ 22)
    (hScale : scale (.ofNat d.digits) d.exponent 4 = some z) :
    z.code = double.round d.num d.den := by
  have hNear : d.exponent.natAbs ≤ 308 := by omega
  have hDen : 0 < d.den := tenTo_pos _
  have hOne : tenTo 0 = 1 := rfl
  have hDigits := value_ofNat_of_le hBits
  have hPower := value_tenTo_of_le hFirst
  have hRatio : ∃ num den : Nat, 0 < den ∧
      z.code = double.round num den ∧
      (num / den : ℚ) = d.num / d.den := by
    simp only [scale, if_pos hNear] at hScale
    split_ifs at hScale with hUp hFinite
    · rcases exists_ratio_mul (.ofNat d.digits)
          (.ofNat (tenTo d.exponent.natAbs)) with
        ⟨num, den, hPositive, hCode, hRatio⟩
      have hWhole : d.exponent.toNat = d.exponent.natAbs ∧
          (-d.exponent).toNat = 0 := by omega
      refine ⟨num, den, hPositive, ?_, ?_⟩
      · rw [← hCode, Option.some.inj hScale]
      · rw [hRatio, hDigits, hPower, Decimal.num, Decimal.den,
          hWhole.1, hWhole.2, hOne, Nat.cast_one, div_one,
          Nat.cast_mul]
    · rcases exists_ratio_div (.ofNat d.digits)
          (code_tenTo_pos hNear) with
        ⟨num, den, hPositive, hCode, hRatio⟩
      have hPart : d.exponent.toNat = 0 ∧
          (-d.exponent).toNat = d.exponent.natAbs := by omega
      refine ⟨num, den, hPositive, ?_, ?_⟩
      · rw [← hCode, Option.some.inj hScale]
      · rw [hRatio, hDigits, hPower, Decimal.num, Decimal.den,
          hPart.1, hPart.2, hOne, Nat.mul_one]
  rcases hRatio with ⟨num, den, hPositive, hCode, hRatio⟩
  rw [hCode]
  refine round_congr hPositive hDen ?_
  rw [div_eq_div_iff (Nat.cast_pos.mpr hPositive).ne'
    (Nat.cast_pos.mpr hDen).ne'] at hRatio
  exact_mod_cast hRatio

end Json

end Factbase
