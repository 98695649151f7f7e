import Factbase.Proofs.Json.FloatErrors

/-
  How far a number is from what its numeral reads as.

  The numeral is in the interval of the number, and the last
  rounding of the reader starts close to the numeral.  Steps are
  a small part of their numbers, so the number that is read is a
  few steps away at most.  If the reader starts exactly at the
  numeral it ends at the number.

  Key definitions include:
    * `Binary.IsShort`
    * `Binary.RereadAs`

  Main declarations:
    * `Json.code_bounds_of_isCloseTo`
    * `Binary.rereadAs_reread`
-/

namespace Factbase

------------------------------------------------------------
-- Close Ratios and Codes
------------------------------------------------------------

namespace Format

variable {code : Nat}

/- The least positive number is the least step. -/
theorem least_le_step (code : Nat) :
    (1 / twoTo 1075 : ℚ) ≤ double.step code / 2 := by
  have hPowers : twoTo 1075 = twoTo 1 * twoTo 1074 :=
    twoTo_add 1 1074
  have hOne : (1 : ℚ) ≤ twoTo (double.shift code) :=
    Nat.one_le_cast.mpr (twoTo_pos _)
  have hUnit := cast_twoTo_pos 1074
  have hDepth : double.depth = 1074 := rfl
  rw [hPowers, Nat.cast_mul, cast_twoTo 1, step, hDepth,
    div_div, mul_comm, pow_one]
  exact div_le_div_of_nonneg_right hOne
    (mul_pos hUnit zero_lt_two).le

/- Three steps up lead three steps on at least. -/
theorem value_add_three (code : Nat) :
    double.value code + 3 * double.step code ≤
      double.value (code + 3) := by
  have hFirst := double.value_succ code
  have hSecond := double.value_succ (code + 1)
  have hThird := double.value_succ (code + 2)
  have hMono := double.step_mono (Nat.le_succ code)
  have hMono' := double.step_mono (Nat.le_add_right code 2)
  linarith

/- A number and one step are at most as many steps as fit 53 bits. -/
theorem value_add_step_le (code : Nat) :
    double.value code + double.step code ≤
      2 ^ 53 * double.step code := by
  rw [value_eq_significand_mul, ← add_one_mul]
  exact mul_le_mul_of_nonneg_right (significand_succ_le code)
    (step_pos _ _).le

/-
  Three steps down lead three of the steps below a number back,
  or two of them where the steps change, near a power of two.
-/
theorem value_sub_three (hLarge : 3 ≤ code) :
    double.value (code - 3) + 3 * double.step (code - 1) =
        double.value code ∨
      (double.value (code - 3) + 2 * double.step (code - 1) ≤
          double.value code ∧
        double.value code ≤
          (2 ^ 52 + 2) * double.step (code - 1)) := by
  obtain ⟨low, rfl⟩ := Nat.exists_eq_add_of_le' hLarge
  have hBinade : double.binade = 2 ^ 52 := rfl
  have hFirst := double.value_succ low
  have hSecond := double.value_succ (low + 1)
  have hThird := double.value_succ (low + 2)
  have hMono := double.step_mono (Nat.le_succ low)
  have hMono' := double.step_mono (Nat.le_succ (low + 1))
  have hLast : low + 3 - 1 = low + 2 := rfl
  rw [Nat.add_sub_cancel, hLast]
  have hShift : double.shift (low + 2) = double.shift low ∨
      (double.shift (low + 2) = double.shift low + 1 ∧
        double.significand (low + 2) + 1 ≤ 2 ^ 52 + 2) := by
    simp only [shift, significand, hBinade]
    split_ifs <;> omega
  rcases hShift with hSame | ⟨hNext, hLeading⟩
  · have hStep : double.step (low + 2) = double.step low := by
      rw [step, hSame, step]
    refine .inl ?_
    linarith
  · have hStep : double.step (low + 2) = 2 * double.step low := by
      rw [step, hNext, step, twoTo_add, Nat.cast_mul,
        cast_twoTo 1, pow_one, mul_comm (twoTo _ : ℚ),
        mul_div_assoc]
    have hLeading' :
        (double.significand (low + 2) : ℚ) + 1 ≤ 2 ^ 52 + 2 := by
      exact_mod_cast hLeading
    have hSteps := mul_le_mul_of_nonneg_right hLeading'
      (double.step_pos (low + 2)).le
    rw [add_one_mul, ← value_eq_significand_mul, ← hThird]
      at hSteps
    refine .inr ⟨?_, hSteps⟩
    linarith

/- A ratio close to a decimal is few steps from its number. -/
theorem ratio_bounds
    {d : Decimal}
    {ratio : ℚ}
    (hRounds : double.rounds code d = true)
    (hRatio : 0 ≤ ratio)
    (hClose : Near (5 / 2 ^ 54) ratio d.value ∨
      |ratio - d.value| ≤ 1 / twoTo 1075) :
    double.value (code - 3) ≤ ratio ∧
      ratio ≤ double.value (code + 3) := by
  rcases value_between_of_rounds hRounds with ⟨hLow, hHigh⟩
  have hNext := double.value_succ code
  have hUp := value_add_three code
  have hSteps := value_add_step_le code
  have hStep := double.step_pos code
  have hValue := double.value_nonneg code
  constructor
  · rcases Nat.lt_or_ge code 3 with hFew | hLarge
    · rw [Nat.sub_eq_zero_of_le (by omega), value_zero]
      exact hRatio
    · have hBefore := double.value_succ (code - 1)
      rw [Nat.sub_add_cancel (by omega)] at hBefore
      have hPart : double.value code ≤
          2 ^ 53 * double.step (code - 1) :=
        value_le_steps (by omega)
      have hStep' := double.step_pos (code - 1)
      rcases hClose with hNear | hNear
      · have hBelow := hNear.bounds.1
        rcases value_sub_three hLarge with hSame | ⟨hTwo, hLead⟩
        · linarith
        · linarith
      · have hBelow := (abs_le.mp hNear).1
        have hLeast := least_le_step (code - 1)
        rcases value_sub_three hLarge with hSame | ⟨hTwo, hLead⟩
        · linarith
        · linarith
  · rcases hClose with hNear | hNear
    · have hAbove := hNear.bounds.2
      linarith
    · have hAbove := (abs_le.mp hNear).2
      have hLeast := least_le_step code
      linarith

end Format

------------------------------------------------------------
-- Decimals of Numbers
------------------------------------------------------------

variable {x : Binary64}

theorem Binary.numeral_of_code_eq_zero
    (hZero : x.code = 0) : x.numeral = ⟨0, -1⟩ := by
  have hIsZero : x.isZero = true := by
    simpa [isZero] using hZero
  rw [numeral, Layout.unsigned, if_pos hIsZero]
  rfl

/- A number is at its numeral. -/
theorem Binary.rounds_numeral
    (hFinite : x.isFinite = true) :
    Format.double.rounds x.code x.numeral = true := by
  have hCode : x.code < Format.double.infinity := by
    simpa [isFinite] using hFinite
  rcases Nat.eq_zero_or_pos x.code with hZero | hPositive
  · rw [numeral_of_code_eq_zero hZero, hZero]
    decide +kernel
  · have hIsZero : ¬ x.isZero = true := by
      simpa [isZero] using hPositive.ne'
    rw [numeral, Layout.unsigned, if_neg hIsZero]
    exact Layout.rounds_ofNumeral hPositive hCode

theorem Binary.digits_numeral_pos
    (hFinite : x.isFinite = true)
    (hPositive : 0 < x.code) : 0 < x.numeral.digits :=
  Format.digits_pos_of_rounds hPositive (rounds_numeral hFinite)

theorem Binary.digits_numeral_lt
    (hFinite : x.isFinite = true) :
    x.numeral.digits < 2 ^ 64 := by
  have hLimit : Json.significandLimit = 2 ^ 64 - 1 := rfl
  have hFits := (Json.readsInFull_unsigned (x := x)
    (by simpa [isFinite] using hFinite)).1
  rw [hLimit] at hFits
  exact Nat.lt_of_le_pred (by decide) hFits

theorem word_mul_twoTo_1075_lt :
    2 ^ 64 * twoTo 1075 < tenTo 617 := by
  have hTwice : 2 ^ 65 * twoTo 1075 ≤ tenTo 617 :=
    (mul_twoTo_le (Nat.le_refl _) 1075).trans
      (twoTo_le_tenTo (by decide))
  have hPositive := twoTo_pos 1075
  omega

/- No numeral is so small that two quotients do not reach it. -/
theorem Binary.exponent_numeral_ge
    (hFinite : x.isFinite = true)
    (hPositive : 0 < x.code) : -616 ≤ x.numeral.exponent := by
  have hBetween := (Format.value_between_of_rounds
    (rounds_numeral hFinite)).1
  have hWord := digits_numeral_lt hFinite
  have hBefore := Format.double.value_succ (x.code - 1)
  have hNonneg := Format.double.value_nonneg (x.code - 1)
  have hLeast := Format.least_le_step (x.code - 1)
  rw [Nat.sub_add_cancel hPositive] at hBefore
  by_contra hBelow
  have hFar : x.numeral.exponent.toNat = 0 ∧
      617 ≤ (-x.numeral.exponent).toNat := by omega
  have hTen := cast_tenTo_pos 617
  have hSmall : x.numeral.value ≤ 2 ^ 64 / tenTo 617 := by
    have hOne : tenTo 0 = 1 := rfl
    rw [Decimal.value, Format.ten_zpow_eq, hFar.1, hOne,
      Nat.cast_one, mul_one_div]
    refine div_le_div₀ (by norm_num) ?_ hTen
      (Nat.cast_le.mpr (tenTo_mono hFar.2))
    exact_mod_cast hWord.le
  have hOver : (1 / twoTo 1075 : ℚ) ≤ 2 ^ 64 / tenTo 617 := by
    linarith
  rw [div_le_div_iff₀ (cast_twoTo_pos _) hTen, one_mul]
    at hOver
  refine absurd word_mul_twoTo_1075_lt (Nat.not_lt.mpr ?_)
  exact_mod_cast hOver

------------------------------------------------------------
-- Numbers That Are Read Again
------------------------------------------------------------

/-
  A significand and a power of ten that need no rounding: up to
  53 bits, and up to 22 places.
-/
def Binary.IsShort (x : Binary64) : Prop :=
  x.numeral.digits ≤ 2 ^ 53 ∧ x.numeral.exponent.natAbs ≤ 22

instance (x : Binary64) : Decidable x.IsShort :=
  inferInstanceAs (Decidable (_ ∧ _))

theorem Binary.isShort_of_code_eq_zero
    (hZero : x.code = 0) : x.IsShort := by
  rw [IsShort, numeral_of_code_eq_zero hZero]
  decide

/-
  What becomes of a number that is written and read.  The
  reader scales the numeral, with a rounding at each step.  The
  result has the same sign and is finite, at most three numbers
  away, and the same if the numeral is short.
-/
structure Binary.RereadAs (x y : Binary64) : Prop where
  scaled :
    Json.scale (.ofNat x.numeral.digits) x.numeral.exponent 4 =
      some ⟨false, y.code⟩
  negative : y.negative = x.negative
  isFinite : y.isFinite = true
  below : x.code ≤ y.code + 3
  above : y.code ≤ x.code + 3
  exact : x.IsShort → y = x

namespace Json

open Format

variable {code other : Nat}

/- Of a ratio close to a number, the code is close as well. -/
theorem code_bounds_of_isCloseTo
    {d : Decimal}
    (hFinite : code < double.infinity)
    (hRounds : double.rounds code d = true)
    (hClose : IsCloseTo other d.value) :
    code ≤ other + 3 ∧ other ≤ code + 3 := by
  rcases hClose with ⟨num, den, hDen, hCode, hRatio⟩
  rw [hCode]
  have hNonneg : (0 : ℚ) ≤ num / den :=
    div_nonneg (Nat.cast_nonneg _) (Nat.cast_nonneg _)
  have hBounds := ratio_bounds hRounds hNonneg hRatio
  constructor
  · have hLow := le_round_of_value_le (by decide) hDen
      (show code - 3 ≤ double.infinity by omega) hBounds.1
    omega
  · exact round_le_of_le_value (by decide) hDen hBounds.2

end Json

/- A finite number is read again as that. -/
theorem Binary.rereadAs_reread
    (hFinite : x.isFinite = true) : x.RereadAs x.reread := by
  rcases Json.scale_numeral hFinite with ⟨hScale, hSign⟩
  have hCode : x.code < Format.double.infinity := by
    simpa [Binary.isFinite] using hFinite
  have hRounds := rounds_numeral hFinite
  have hWord := digits_numeral_lt hFinite
  have hRereadFinite := Json.isFinite_scale
    (Json.isFinite_ofNat_of_lt_word hWord) hScale
  have hExact : x.IsShort → x.reread.code = x.code := by
    rintro ⟨hBits, hFirst⟩
    have hOnce := Json.scale_exact hBits hFirst hScale
    rwa [Format.round_of_rounds (by decide) hCode.le hRounds]
      at hOnce
  have hClose : x.code ≤ x.reread.code + 3 ∧
      x.reread.code ≤ x.code + 3 := by
    rcases Nat.eq_zero_or_pos x.code with hZero | hPositive
    · have hSame := hExact (isShort_of_code_eq_zero hZero)
      omega
    · have hScaled := Json.isCloseTo_of_scale
        (digits_numeral_pos hFinite hPositive) hWord
        (exponent_numeral_ge hFinite hPositive) hScale
      exact Json.code_bounds_of_isCloseTo hCode hRounds hScaled
  refine ⟨hScale, hSign, hRereadFinite, hClose.1, hClose.2, ?_⟩
  intro hShort
  have hSame := hExact hShort
  generalize x.reread = y at hSign hSame
  rcases x with ⟨negative, code⟩
  rcases y with ⟨negative', code'⟩
  cases hSign
  cases hSame
  rfl

end Factbase
