import Factbase.Proofs.Binary.Errors

/-
  The shortest decimal of a 64-bit number is short.

  The search goes down from a power of ten above the number and
  passes a power only if that is more than half a step.  So the
  one it ends with is not much finer than the step, and there
  are not more multiples of it up to the number than fit a
  machine word.

  Main declarations:
    * `Format.fine_iff`
    * `Format.value_lt_ceiling`
    * `Format.digits_shortest_short`
-/

namespace Factbase.Format

variable {f : Format}
variable {code : Nat}

------------------------------------------------------------
-- Fine Powers
------------------------------------------------------------

theorem ten_zpow_eq (exponent : Int) :
    (10 : ℚ) ^ exponent =
      tenTo exponent.toNat / tenTo (-exponent).toNat := by
  rw [cast_tenTo, cast_tenTo, ← zpow_natCast, ← zpow_natCast,
    ← zpow_sub₀ (by norm_num)]
  congr 1
  omega

/- A fine power is at most half of the step to a number. -/
theorem fine_iff {exponent : Int} :
    f.Fine code exponent ↔
      2 * (10 : ℚ) ^ exponent ≤ f.step (code - 1) := by
  have hTen := cast_tenTo_pos (-exponent).toNat
  rw [ten_zpow_eq, step, ← mul_div_assoc,
    div_le_div_iff₀ hTen (cast_twoTo_pos _), Fine,
    ← @Nat.cast_le ℚ]
  push_cast
  rw [mul_right_comm, mul_assoc 2, mul_comm (twoTo f.depth : ℚ)]

/- The last power passed is too coarse, if any is passed. -/
theorem exists_last_fine
    {tried : Nat}
    {exponent : Int}
    (hFine : f.Fine code (exponent - tried)) :
    ∃ last : Nat, last ≤ tried ∧ f.Fine code (exponent - last) ∧
      (last = 0 ∨ ¬ f.Fine code (exponent - last + 1)) := by
  induction tried with
  | zero => exact ⟨0, Nat.le_refl _, hFine, .inl rfl⟩
  | succ tried ih =>
      by_cases hNext : f.Fine code (exponent - tried)
      · rcases ih hNext with ⟨last, hLess, hLast⟩
        exact ⟨last, Nat.le_succ_of_le hLess, hLast⟩
      · refine ⟨tried + 1, Nat.le_refl _, hFine, .inr ?_⟩
        have hUp : exponent - (tried + 1 : Nat) + 1 =
            exponent - tried := by
          omega
        rwa [hUp]

------------------------------------------------------------
-- The First Power
------------------------------------------------------------

/- The first power tried for numbers with some bits. -/
def firstTried (bits : Nat) : Int :=
  ((bits : Int) - 1074 + 1) * 30103 / 100000 + 1

/- The first power is above all numbers, however many the bits. -/
theorem firstTried_above (bits : Nat) :
    twoTo (bits + 1) * tenTo (-firstTried bits).toNat ≤
      tenTo (firstTried bits).toNat * twoTo 1074 := by
  have hOne : tenTo 0 = 1 := rfl
  rw [firstTried]
  rcases Nat.lt_or_ge bits 1073 with hPart | hWhole
  · -- places on the left, which the bits that lack there hold
    have hNone : (((bits : Int) - 1074 + 1) * 30103 / 100000
        + 1).toNat = 0 := Int.toNat_of_nonpos (by omega)
    rw [hNone, hOne, Nat.one_mul]
    calc twoTo (bits + 1) * tenTo _
        ≤ twoTo (bits + 1) * twoTo (1073 - bits) :=
          Nat.mul_le_mul_left _ (tenTo_le_twoTo (by omega))
      _ = twoTo (bits + 1 + (1073 - bits)) :=
          (twoTo_add _ _).symm
      _ ≤ twoTo 1074 := twoTo_mono (by omega)
  · -- places on the right, which hold the bits above one
    have hNone : (-(((bits : Int) - 1074 + 1) * 30103 / 100000
        + 1)).toNat = 0 := Int.toNat_of_nonpos (by omega)
    rw [hNone, hOne, Nat.mul_one]
    calc twoTo (bits + 1)
        ≤ twoTo (bits - 1073 + 1074) := twoTo_mono (by omega)
      _ = twoTo (bits - 1073) * twoTo 1074 := twoTo_add _ _
      _ ≤ tenTo _ * twoTo 1074 :=
          Nat.mul_le_mul_right _ (twoTo_le_tenTo (by omega))

theorem value_lt_ceiling (code : Nat) :
    double.value code < 10 ^ double.ceiling code := by
  have hCeiling : double.ceiling code =
      firstTried (Nat.log2 (double.units code)) := rfl
  have hAbove : (_ : ℚ) ≤ _ :=
    Nat.cast_le.mpr
      (firstTried_above (Nat.log2 (double.units code)))
  have hUnits : double.units code <
      twoTo (Nat.log2 (double.units code) + 1) :=
    Nat.lt_log2_self
  have hTen := cast_tenTo_pos (-double.ceiling code).toNat
  have hUnits' : (_ : ℚ) < _ := Nat.cast_lt.mpr hUnits
  have hDepth : double.depth = 1074 := rfl
  rw [← hCeiling] at hAbove
  push_cast at hAbove
  rw [ten_zpow_eq, value, hDepth,
    div_lt_div_iff₀ (cast_twoTo_pos _) hTen]
  exact lt_of_lt_of_le (mul_lt_mul_of_pos_right hUnits' hTen)
    hAbove

------------------------------------------------------------
-- Digits
------------------------------------------------------------

theorem significand_succ_le (code : Nat) :
    (double.significand code : ℚ) + 1 ≤ 2 ^ 53 := by
  have hBound : double.significand code + 1 ≤ 2 ^ 53 :=
    significand_lt code
  exact_mod_cast hBound

/- A number is at most so many of the steps that lead to it. -/
theorem value_le_steps (hPositive : 0 < code) :
    double.value code ≤ 2 ^ 53 * double.step (code - 1) := by
  have hLast := double.value_succ (code - 1)
  rw [Nat.sub_add_cancel hPositive,
    value_eq_significand_mul double (code - 1)] at hLast
  rw [hLast, ← add_one_mul]
  exact mul_le_mul_of_nonneg_right (significand_succ_le _)
    (step_pos _ _).le

theorem step_le_value (hPositive : 0 < code) :
    double.step (code - 1) ≤ double.value code := by
  have hLast := double.value_succ (code - 1)
  have hBefore := double.value_nonneg (code - 1)
  rw [Nat.sub_add_cancel hPositive] at hLast
  linarith

/- Steps at most double from one code to the next. -/
theorem step_le_twice (code : Nat) :
    double.step code ≤ 2 * double.step (code - 1) := by
  have hBinade : double.binade = 2 ^ 52 := rfl
  have hShift :
      double.shift code ≤ double.shift (code - 1) + 1 := by
    simp only [shift, hBinade]
    omega
  have hPower : twoTo (double.shift code) ≤
      2 * twoTo (double.shift (code - 1)) := by
    rw [← twoTo_succ]
    exact twoTo_mono hShift
  rw [step, step, ← mul_div_assoc]
  refine div_le_div_of_nonneg_right ?_ (cast_twoTo_pos _).le
  exact_mod_cast hPower

/-
  The digits of the shortest decimal fit a word, with room for
  one more digit.
-/
theorem digits_shortest_short
    (tie : Tie)
    (hPositive : 0 < code)
    (hFinite : code < double.infinity) :
    (double.shortest tie code).digits < 2 ^ 58 := by
  have hFine :
      double.Fine code (double.ceiling code - (23 : Nat)) :=
    ceiling_fine hPositive hFinite
  rcases exists_last_fine hFine with
    ⟨last, hLess, hLast, hCoarse⟩
  rcases search_spec (f := double) tie hPositive
    (show last < 24 by omega) hLast with ⟨hRounds, hLow, hHigh⟩
  change double.rounds code (double.shortest tie code) = true
    at hRounds
  change _ ≤ (double.shortest tie code).exponent at hLow
  change (double.shortest tie code).exponent ≤ _ at hHigh
  generalize double.shortest tie code = d at *
  have hSteps := value_le_steps hPositive
  have hTwice := step_le_twice code
  have hUpper := (value_between_of_rounds hRounds).2
  rw [value_succ] at hUpper
  have hPower : (0 : ℚ) < 10 ^ d.exponent := by positivity
  have hDigits : (d.digits : ℚ) * 10 ^ d.exponent <
      2 ^ 58 * 10 ^ d.exponent := by
    change d.value < _
    rcases hCoarse with hNone | hCoarse
    · -- the first power is already fine enough
      have hFirst : d.exponent = double.ceiling code := by
        omega
      have hBelow := value_lt_ceiling code
      have hStep := step_le_value hPositive
      rw [← hFirst] at hBelow
      linarith
    · rw [fine_iff, not_le] at hCoarse
      have hTen : 2 * (10 : ℚ) ^ (double.ceiling code - last + 1) ≤
          20 * 10 ^ d.exponent := by
        have hMono : (10 : ℚ) ^ (double.ceiling code - last) ≤
            10 ^ d.exponent :=
          zpow_le_zpow_right₀ (by norm_num) hLow
        rw [zpow_add_one₀ (by norm_num)]
        linarith
      linarith
  exact_mod_cast lt_of_mul_lt_mul_right hDigits hPower.le

end Factbase.Format
