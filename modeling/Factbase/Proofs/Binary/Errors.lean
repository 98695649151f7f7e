import Factbase.Proofs.Binary.Nearest
import Mathlib.Algebra.Order.Field.Basic
import Mathlib.Algebra.Order.Field.Power
import Mathlib.Data.Rat.Cast.Order
import Mathlib.Tactic.FieldSimp
import Mathlib.Tactic.Linarith
import Mathlib.Tactic.Positivity

/-
  How far rounding goes.

  Numbers and decimals are taken as rationals here.  Rounding
  once moves a ratio by half of the least positive number, or
  by a part of the ratio that the precision tells.  Such parts
  add up where rounded numbers are multiplied and divided.

  Key definitions include:
    * `Near`
    * `Decimal.value`
    * `Format.value`
    * `Format.step`

  Main declarations:
    * `Near.mul`
    * `Near.div`
    * `Near.trans`
    * `Format.near_round`
    * `Format.value_between_of_rounds`
-/

namespace Factbase

------------------------------------------------------------
-- Relative Errors
------------------------------------------------------------

/- A rational is another one up to a part of that. -/
def Near (part a b : ℚ) : Prop :=
  |a - b| ≤ part * b

namespace Near

variable {a b c d s t : ℚ}

theorem refl (a : ℚ) : Near 0 a a := by
  rw [Near, sub_self, abs_zero, zero_mul]

/- A greater part allows what a smaller one does. -/
theorem mono
    (hNear : Near s a b)
    (hPart : s ≤ t)
    (hPositive : 0 ≤ b) : Near t a b :=
  le_trans hNear (mul_le_mul_of_nonneg_right hPart hPositive)

/- Two bounds say how far a rational is from another. -/
theorem bounds (hNear : Near s a b) :
    (1 - s) * b ≤ a ∧ a ≤ (1 + s) * b := by
  rw [Near, abs_le] at hNear
  constructor <;> linarith

/- The bounds are all that there is to show. -/
theorem of_bounds
    (hLow : (1 - s) * b ≤ a)
    (hHigh : a ≤ (1 + s) * b) : Near s a b := by
  rw [Near, abs_le]
  constructor <;> linarith

/- Parts of factors add up, with their product. -/
theorem mul
    (hLeft : Near s a b)
    (hRight : Near t c d)
    (hs : 0 ≤ s)
    (hb : 0 ≤ b)
    (hd : 0 ≤ d) : Near (s + t + s * t) (a * c) (b * d) := by
  have hSplit : a * c - b * d =
      (a - b) * (c - d) + (a - b) * d + b * (c - d) := by ring
  rw [Near, hSplit]
  calc |(a - b) * (c - d) + (a - b) * d + b * (c - d)|
      ≤ |a - b| * |c - d| + |a - b| * d + b * |c - d| := by
        rw [← abs_mul, ← abs_of_nonneg hd, ← abs_of_nonneg hb,
          abs_of_nonneg hd, abs_of_nonneg hb]
        refine le_trans (abs_add_le _ _) (add_le_add
          (le_trans (abs_add_le _ _) (add_le_add le_rfl ?_)) ?_)
        · rw [abs_mul, abs_of_nonneg hd]
        · rw [abs_mul, abs_of_nonneg hb]
    _ ≤ (s * b) * (t * d) + (s * b) * d + b * (t * d) := by
        have hsb : 0 ≤ s * b := mul_nonneg hs hb
        exact add_le_add (add_le_add
          (mul_le_mul hLeft hRight (abs_nonneg _) hsb)
          (mul_le_mul_of_nonneg_right hLeft hd))
          (mul_le_mul_of_nonneg_left hRight hb)
    _ = (s + t + s * t) * (b * d) := by ring

/- Parts of one rounding after another do so as well. -/
theorem trans
    (hFirst : Near s a b)
    (hSecond : Near t b c)
    (hs : 0 ≤ s) : Near (s + t + s * t) a c := by
  have hMiddle := hSecond.bounds.2
  rw [Near]
  calc |a - c|
      ≤ |a - b| + |b - c| := abs_sub_le a b c
    _ ≤ s * b + t * c := add_le_add hFirst hSecond
    _ ≤ s * ((1 + t) * c) + t * c :=
        add_le_add (mul_le_mul_of_nonneg_left hMiddle hs) le_rfl
    _ = (s + t + s * t) * c := by ring

/- The part of a divisor counts a little more than itself. -/
theorem div
    (hLeft : Near s a b)
    (hRight : Near t c d)
    (ht : t < 1)
    (hPart : 0 ≤ s + t)
    (hb : 0 ≤ b)
    (hd : 0 < d) : Near ((s + t) / (1 - t)) (a / c) (b / d) := by
  have hRoom : 0 < 1 - t := sub_pos.mpr ht
  have hLow : (1 - t) * d ≤ c := hRight.bounds.1
  have hc : 0 < c := lt_of_lt_of_le (mul_pos hRoom hd) hLow
  have hCross : |a * d - b * c| ≤ (s + t) * (b * d) := by
    have hSplit : a * d - b * c = (a - b) * d - b * (c - d) := by
      ring
    rw [hSplit]
    calc |(a - b) * d - b * (c - d)|
        ≤ |(a - b) * d| + |b * (c - d)| := abs_sub _ _
      _ = |a - b| * d + b * |c - d| := by
          rw [abs_mul, abs_mul, abs_of_pos hd, abs_of_nonneg hb]
      _ ≤ (s * b) * d + b * (t * d) :=
          add_le_add (mul_le_mul_of_nonneg_right hLeft hd.le)
            (mul_le_mul_of_nonneg_left hRight hb)
      _ = (s + t) * (b * d) := by ring
  have hQuotient : a / c - b / d = (a * d - b * c) / (c * d) := by
    rw [div_sub_div a b hc.ne' hd.ne', mul_comm c b]
  rw [Near, hQuotient, abs_div, abs_of_pos (mul_pos hc hd),
    div_le_iff₀ (mul_pos hc hd)]
  refine le_trans hCross ?_
  calc (s + t) * (b * d)
      = (s + t) / (1 - t) * (b / d) * ((1 - t) * d * d) := by
        field_simp
    _ ≤ (s + t) / (1 - t) * (b / d) * (c * d) := by
        refine mul_le_mul_of_nonneg_left
          (mul_le_mul_of_nonneg_right hLow hd.le) ?_
        exact mul_nonneg (div_nonneg hPart hRoom.le)
          (div_nonneg hb hd.le)

end Near

------------------------------------------------------------
-- Decimals and Codes as Rationals
------------------------------------------------------------

/- The powers that are computed are those of the rationals. -/
theorem cast_twoTo (n : Nat) : ((twoTo n : Nat) : ℚ) = 2 ^ n := by
  rw [twoTo_eq, Nat.cast_pow, Nat.cast_ofNat]

theorem cast_tenTo (n : Nat) : ((tenTo n : Nat) : ℚ) = 10 ^ n := by
  rw [tenTo_eq, Nat.cast_pow, Nat.cast_ofNat]

theorem cast_twoTo_pos (n : Nat) : (0 : ℚ) < twoTo n :=
  Nat.cast_pos.mpr (twoTo_pos n)

theorem cast_tenTo_pos (n : Nat) : (0 : ℚ) < tenTo n :=
  Nat.cast_pos.mpr (tenTo_pos n)

namespace Decimal

/- The number that a decimal stands for. -/
def value (d : Decimal) : ℚ :=
  d.digits * 10 ^ d.exponent

/- The value of a decimal is the ratio that is rounded. -/
theorem value_eq (d : Decimal) : d.value = d.num / d.den := by
  rw [value, num, den, Nat.cast_mul, cast_tenTo, cast_tenTo,
    mul_div_assoc]
  congr 1
  rw [← zpow_natCast, ← zpow_natCast, ← zpow_sub₀ (by norm_num)]
  congr 1
  omega

end Decimal

namespace Format

variable {f : Format}
variable {num den code : Nat}

/- The number that a code stands for. -/
def value (f : Format) (code : Nat) : ℚ :=
  f.units code / twoTo f.depth

/- The distance from the number of a code to the next number. -/
def step (f : Format) (code : Nat) : ℚ :=
  twoTo (f.shift code) / twoTo f.depth

/- No code stands for a negative number. -/
theorem value_nonneg (f : Format) (code : Nat) :
    0 ≤ f.value code :=
  div_nonneg (Nat.cast_nonneg _) (Nat.cast_nonneg _)

/- There is a distance between any two codes. -/
theorem step_pos (f : Format) (code : Nat) : 0 < f.step code :=
  div_pos (cast_twoTo_pos _) (cast_twoTo_pos _)

/- The least code stands for zero. -/
theorem value_zero (f : Format) : f.value 0 = 0 := by
  rw [value, units_of_lt f.binade_pos, Nat.cast_zero, zero_div]

/- One step leads from a code to the next. -/
theorem value_succ (f : Format) (code : Nat) :
    f.value (code + 1) = f.value code + f.step code := by
  rw [value, value, step, units_succ, Nat.cast_add, add_div]

/- The steps between greater numbers are no smaller. -/
theorem step_mono (f : Format) : Monotone f.step := by
  intro code other hLess
  refine div_le_div_of_nonneg_right (Nat.cast_le.mpr
    (twoTo_mono ?_)) (cast_twoTo_pos _).le
  exact Nat.sub_le_sub_right (Nat.div_le_div_right hLess) 1

/- A number is its significand times its step. -/
theorem value_eq_significand_mul (f : Format) (code : Nat) :
    f.value code = f.significand code * f.step code := by
  rw [value, units, Nat.cast_mul, step, mul_div_assoc]

/- A decimal in the interval of a code is between half ways. -/
theorem value_between_of_rounds
    {d : Decimal}
    (hRounds : f.rounds code d = true) :
    f.value (code - 1) + f.value code ≤ 2 * d.value ∧
      2 * d.value ≤ f.value code + f.value (code + 1) := by
  rcases bounds_of_rounds hRounds with ⟨hLow, hHigh⟩
  have hDen : (0 : ℚ) < d.den := Nat.cast_pos.mpr (tenTo_pos _)
  have hUnit := cast_twoTo_pos f.depth
  rw [twoTo_succ, lower] at hLow
  rw [twoTo_succ, upper] at hHigh
  have hLow' : (_ : ℚ) ≤ _ := Nat.cast_le.mpr hLow
  have hHigh' : (_ : ℚ) ≤ _ := Nat.cast_le.mpr hHigh
  push_cast at hLow' hHigh'
  rw [d.value_eq, value, value, value, ← add_div, ← add_div]
  constructor
  · rw [← mul_div_assoc, div_le_div_iff₀ hUnit hDen]
    linarith
  · rw [← mul_div_assoc, div_le_div_iff₀ hDen hUnit]
    linarith

------------------------------------------------------------
-- One Rounding
------------------------------------------------------------

/- Rounding does not fall below a code of no greater value. -/
theorem le_round_of_value_le
    (hPrecision : 0 < f.precision)
    (hDen : 0 < den)
    (hNumber : code ≤ f.infinity)
    (hLess : f.value code ≤ (num : ℚ) / den) :
    code ≤ f.round num den := by
  refine le_round hPrecision hDen hNumber ?_
  rw [value, div_le_div_iff₀ (cast_twoTo_pos _)
    (Nat.cast_pos.mpr hDen)] at hLess
  exact_mod_cast hLess

/- Nor does it rise above a code of no smaller value. -/
theorem round_le_of_le_value
    (hPrecision : 0 < f.precision)
    (hDen : 0 < den)
    (hLess : (num : ℚ) / den ≤ f.value code) :
    f.round num den ≤ code := by
  refine round_le hPrecision hDen ?_
  rw [value, div_le_div_iff₀ (Nat.cast_pos.mpr hDen)
    (cast_twoTo_pos _)] at hLess
  exact_mod_cast hLess

/-
  Where half of the least positive number is a small part of a
  ratio as well, rounding is off by no more than that part.
-/
theorem near_round
    (hPrecision : 0 < f.precision)
    (hDen : 0 < den)
    (hFinite : f.round num den < f.infinity)
    (part : ℚ)
    (hPart : 1 / twoTo f.precision ≤ part)
    (hLeast : 1 / twoTo (f.depth + 1) ≤ part * (num / den)) :
    Near part (f.value (f.round num den)) (num / den) := by
  have hUnit := cast_twoTo_pos f.depth
  have hDen' : (0 : ℚ) < den := Nat.cast_pos.mpr hDen
  have hHalf : |f.value (f.round num den) - (num : ℚ) / den| ≤
      twoTo (f.dropped num den) / twoTo (f.depth + 1) := by
    rcases nearest_error hPrecision hDen num with
      ⟨hAbove, hBelow⟩
    rw [round_of_lt hFinite, value]
    have hAbove' : (_ : ℚ) ≤ _ := Nat.cast_le.mpr hAbove
    have hBelow' : (_ : ℚ) ≤ _ := Nat.cast_le.mpr hBelow
    rw [div_sub_div _ _ hUnit.ne' hDen'.ne', abs_div,
      abs_of_pos (mul_pos hUnit hDen'),
      div_le_div_iff₀ (mul_pos hUnit hDen') (cast_twoTo_pos _),
      twoTo_succ]
    push_cast at hAbove' hBelow' ⊢
    have hGap :
        |(f.units (f.nearest num den) : ℚ) * den
          - twoTo f.depth * num| * 2 ≤
        twoTo (f.dropped num den) * den := by
      rw [← abs_of_pos (zero_lt_two' ℚ), ← abs_mul, abs_le]
      constructor <;> linarith
    calc |(f.units (f.nearest num den) : ℚ) * den
            - twoTo f.depth * num| * (2 * twoTo f.depth)
        = |(f.units (f.nearest num den) : ℚ) * den
            - twoTo f.depth * num| * 2 * twoTo f.depth := by ring
      _ ≤ twoTo (f.dropped num den) * den * twoTo f.depth :=
          mul_le_mul_of_nonneg_right hGap hUnit.le
      _ = twoTo (f.dropped num den) * (twoTo f.depth * den) := by
          ring
  refine le_trans hHalf ?_
  rcases step_le hPrecision num den with hNone | hSmall
  · rw [hNone]
    simpa [twoTo_eq] using hLeast
  · have hBinade : twoTo f.precision = 2 * f.binade := by
      rw [binade, ← twoTo_succ]
      congr 1
      omega
    have hSmall' : (_ : ℚ) ≤ _ := Nat.cast_le.mpr hSmall
    have hB : (0 : ℚ) < f.binade :=
      Nat.cast_pos.mpr f.binade_pos
    refine le_trans ?_ (mul_le_mul_of_nonneg_right hPart
      (div_nonneg (Nat.cast_nonneg _) hDen'.le))
    rw [hBinade, twoTo_succ, div_mul_div_comm, one_mul,
      div_le_div_iff₀ (by push_cast; positivity)
        (by push_cast; positivity)]
    push_cast at hSmall' ⊢
    calc (twoTo (f.dropped num den) : ℚ)
            * (2 * f.binade * den)
        = 2 * (f.binade
            * (den * twoTo (f.dropped num den))) := by ring
      _ ≤ 2 * (num * twoTo f.depth) :=
          mul_le_mul_of_nonneg_left hSmall' zero_le_two
      _ = num * (2 * twoTo f.depth) := by ring

end Format

end Factbase
