import Factbase.Binary.Format
import Mathlib.Algebra.Group.Nat.Defs
import Mathlib.Data.Nat.Log
import Mathlib.Order.Monotone.Basic
import Mathlib.Tactic.SplitIfs

/-
  Rounding keeps order.

  Codes count the numbers of a format, so a greater code stands
  for a greater number, and of two ratios the greater one never
  rounds to a smaller code.

  Main declarations:
    * `twoTo_le_tenTo`
    * `tenTo_le_twoTo`
    * `Format.units_succ`
    * `Format.units_mono`
    * `Format.round_mono`
    * `Binary.mul_code_mono`
-/

namespace Factbase

------------------------------------------------------------
-- Powers
------------------------------------------------------------

/- The powers that are computed are those of arithmetic. -/
theorem twoTo_eq (n : Nat) : twoTo n = 2 ^ n :=
  rfl

theorem tenTo_eq (n : Nat) : tenTo n = 10 ^ n :=
  rfl

theorem twoTo_add (m n : Nat) :
    twoTo (m + n) = twoTo m * twoTo n :=
  Nat.pow_add 2 m n

theorem twoTo_succ (n : Nat) : twoTo (n + 1) = 2 * twoTo n :=
  Nat.pow_succ'

theorem tenTo_add (m n : Nat) :
    tenTo (m + n) = tenTo m * tenTo n :=
  Nat.pow_add 10 m n

theorem twoTo_pos (n : Nat) : 0 < twoTo n :=
  Nat.pow_pos (by decide)

theorem tenTo_pos (n : Nat) : 0 < tenTo n :=
  Nat.pow_pos (by decide)

theorem twoTo_mono : Monotone twoTo :=
  fun _ _ hLess => Nat.pow_le_pow_right (by decide) hLess

theorem tenTo_mono : Monotone tenTo :=
  fun _ _ hLess => Nat.pow_le_pow_right (by decide) hLess

/- A number of some bits, shifted, has as many bits more. -/
theorem mul_twoTo_le
    {n m : Nat}
    (hBits : n ≤ 2 ^ m)
    (k : Nat) : n * twoTo k ≤ twoTo (m + k) := by
  rw [twoTo_add]
  exact Nat.mul_le_mul_right _ hBits

/- One pair of powers tells for all in its ratio of exponents. -/
theorem pow_le_pow_of_ratio
    {a b p q : Nat}
    (hBase : a ^ p ≤ b ^ q)
    (hRoot : p ≠ 0)
    (hPositive : 0 < b)
    {m n : Nat}
    (hLess : q * m ≤ p * n) : a ^ m ≤ b ^ n := by
  have hPowers : (a ^ m) ^ p ≤ (b ^ n) ^ p :=
    calc (a ^ m) ^ p
        = (a ^ p) ^ m := Nat.pow_right_comm a m p
      _ ≤ (b ^ q) ^ m := Nat.pow_le_pow_left hBase m
      _ = b ^ (q * m) := (Nat.pow_mul b q m).symm
      _ ≤ b ^ (p * n) := Nat.pow_le_pow_right hPositive hLess
      _ = (b ^ n) ^ p := by rw [Nat.mul_comm, Nat.pow_mul]
  exact (Nat.pow_le_pow_iff_left hRoot).mp hPowers

/-
  A bit is at most 0.30103 places, which is what the search for
  shortest decimals takes it for, and at least 8651 / 28738.
-/
theorem bits_and_places :
    2 ^ 100000 ≤ 10 ^ 30103 ∧ 10 ^ 8651 ≤ 2 ^ 28738 := by
  decide +kernel

/- Five digits of the logarithm of two are enough here. -/
theorem twoTo_le_tenTo
    {m n : Nat}
    (hLess : 30103 * m ≤ 100000 * n) : twoTo m ≤ tenTo n :=
  pow_le_pow_of_ratio bits_and_places.1 (by decide) (by decide)
    hLess

/- The other way, by a fraction above the logarithm of ten. -/
theorem tenTo_le_twoTo
    {m n : Nat}
    (hLess : 28738 * m ≤ 8651 * n) : tenTo m ≤ twoTo n :=
  pow_le_pow_of_ratio bits_and_places.2 (by decide) (by decide)
    hLess

namespace Format

variable {f : Format}

theorem binade_pos (f : Format) : 0 < f.binade :=
  Nat.pow_pos (by decide)

------------------------------------------------------------
-- Magnitudes of Codes
------------------------------------------------------------

/- In the first binade, a code counts its own units. -/
theorem units_of_lt
    {code : Nat}
    (hLow : code < f.binade) : f.units code = code := by
  have hShift : f.shift code = 0 := by
    rw [shift, Nat.div_eq_of_lt hLow]
  rw [units, significand, if_pos hLow, hShift]
  exact Nat.mul_one code

/- In each later binade, the units are twice those before. -/
theorem units_eq
    (q : Nat)
    {r : Nat}
    (hRest : r < f.binade) :
    f.units (f.binade * (q + 1) + r) =
      (f.binade + r) * twoTo q ∧
      f.shift (f.binade * (q + 1) + r) = q := by
  have hQuotient : (f.binade * (q + 1) + r) / f.binade = q + 1 := by
    rw [Nat.mul_add_div f.binade_pos, Nat.div_eq_of_lt hRest]
  have hShift : f.shift (f.binade * (q + 1) + r) = q := by
    rw [shift, hQuotient]
    rfl
  have hHigh : ¬ f.binade * (q + 1) + r < f.binade := by
    rw [Nat.mul_succ]
    omega
  refine ⟨?_, hShift⟩
  rw [units, hShift, significand, if_neg hHigh,
    Nat.mul_add_mod, Nat.mod_eq_of_lt hRest]

/- The next number is one step of its binade away. -/
theorem units_succ (f : Format) (code : Nat) :
    f.units (code + 1) = f.units code + twoTo (f.shift code) := by
  have hOne : twoTo 0 = 1 := rfl
  rcases Nat.lt_or_ge code f.binade with hLow | hHigh
  · have hShift : f.shift code = 0 := by
      rw [shift, Nat.div_eq_of_lt hLow]
    rw [units_of_lt hLow, hShift, hOne]
    rcases Nat.lt_or_ge (code + 1) f.binade with hNext | hNext
    · exact units_of_lt hNext
    · have hCode : code + 1 = f.binade * (0 + 1) + 0 := by omega
      rw [hCode, (units_eq 0 f.binade_pos).1, hOne]
      omega
  · have hSplit : code =
        f.binade * (code / f.binade - 1 + 1)
          + code % f.binade := by
      have hPositive : 0 < code / f.binade :=
        Nat.div_pos hHigh f.binade_pos
      rw [Nat.sub_add_cancel hPositive, Nat.div_add_mod]
    have hRest := Nat.mod_lt code f.binade_pos
    generalize code / f.binade - 1 = q at hSplit
    generalize code % f.binade = r at hSplit hRest
    subst hSplit
    rw [(units_eq q hRest).1, (units_eq q hRest).2]
    rcases Nat.lt_or_ge (r + 1) f.binade with hNext | hNext
    · rw [Nat.add_assoc, (units_eq q hNext).1, ← Nat.succ_mul]
      rfl
    · have hCode : f.binade * (q + 1) + r + 1 =
          f.binade * (q + 1 + 1) + 0 := by
        rw [Nat.mul_succ f.binade (q + 1)]
        omega
      have hFull : f.binade + r + 1 = f.binade * 2 := by omega
      rw [hCode, (units_eq (q + 1) f.binade_pos).1, twoTo_succ,
        ← Nat.succ_mul, Nat.succ_eq_add_one, hFull]
      rw [Nat.add_zero, Nat.mul_assoc]

/- A greater code stands for a greater number. -/
theorem units_mono (f : Format) : Monotone f.units :=
  monotone_nat_of_le_succ fun code => by
    rw [units_succ]
    exact Nat.le_add_right _ _

------------------------------------------------------------
-- Rounding
------------------------------------------------------------

/- A ratio, rounded down to whole least positive numbers. -/
def wholeUnits (f : Format) (num den : Nat) : Nat :=
  num * twoTo f.depth / den

/- How many binary places rounding takes from a ratio. -/
def dropped (f : Format) (num den : Nat) : Nat :=
  Nat.log2 (f.wholeUnits num den) + 1 - f.precision

/- The greatest code that is not greater than a ratio. -/
def floorCode (f : Format) (num den : Nat) : Nat :=
  f.dropped num den * f.binade
    + num * twoTo f.depth / (den * twoTo (f.dropped num den))

/- A ratio is nearer to the next code, or as near and that is even. -/
def RoundsUp (f : Format) (num den : Nat) : Prop :=
  let step := den * twoTo (f.dropped num den)
  step < 2 * (num * twoTo f.depth % step) ∨
    step = 2 * (num * twoTo f.depth % step) ∧
      num * twoTo f.depth / step % 2 = 1

instance (num den : Nat) : Decidable (f.RoundsUp num den) := by
  unfold RoundsUp
  infer_instance

/-
  Rounding takes the code below, or the next one, but none
  beyond infinity.
-/
theorem round_eq (f : Format) (num den : Nat) :
    f.round num den =
      min f.infinity
        (if f.RoundsUp num den then f.floorCode num den + 1
          else f.floorCode num den) :=
  rfl

variable {num num' den : Nat}

/-
  What is left has at most the bits of a significand, and all of
  them if places were taken.
-/
theorem significand_bounds
    (hPrecision : 0 < f.precision)
    (num den : Nat) :
    num * twoTo f.depth / (den * twoTo (f.dropped num den)) <
        2 * f.binade ∧
      (0 < f.dropped num den →
        f.binade ≤ num * twoTo f.depth
          / (den * twoTo (f.dropped num den))) := by
  have hDropped : f.dropped num den =
      Nat.log2 (f.wholeUnits num den) + 1 - f.precision := rfl
  rw [← Nat.div_div_eq_div_mul, ← wholeUnits, hDropped]
  generalize f.wholeUnits num den = whole
  simp only [binade, twoTo_eq]
  constructor
  · rw [← Nat.pow_succ', Nat.succ_eq_add_one,
      Nat.sub_add_cancel hPrecision]
    apply Nat.div_lt_of_lt_mul
    calc whole
        < 2 ^ (whole.log2 + 1) := Nat.lt_log2_self
      _ ≤ 2 ^ (whole.log2 + 1 - f.precision + f.precision) :=
          Nat.pow_le_pow_right (by decide) (by omega)
      _ = 2 ^ (whole.log2 + 1 - f.precision) * 2 ^ f.precision :=
          Nat.pow_add _ _ _
  · intro hPlaces
    have hNonzero : whole ≠ 0 := by
      rintro rfl
      rw [Nat.log2_zero] at hPlaces
      omega
    rw [Nat.le_div_iff_mul_le (Nat.pow_pos (by decide)),
      ← Nat.pow_add]
    calc 2 ^ (f.precision - 1
            + (whole.log2 + 1 - f.precision))
        = 2 ^ whole.log2 := by congr 1; omega
      _ ≤ whole := Nat.log2_self_le hNonzero

/- A greater number drops no fewer bits. -/
theorem dropped_mono (hLess : num ≤ num') :
    f.dropped num den ≤ f.dropped num' den := by
  have hWhole : f.wholeUnits num den ≤ f.wholeUnits num' den :=
    Nat.div_le_div_right (Nat.mul_le_mul_right _ hLess)
  have hLog := Nat.log_mono_right (b := 2) hWhole
  rw [dropped, dropped, Nat.log2_eq_log_two,
    Nat.log2_eq_log_two]
  omega

/- Of ratios with one quotient, the greater rounds up first. -/
theorem roundsUp_of_le
    (hScaled : num * twoTo f.depth ≤ num' * twoTo f.depth)
    (hDropped : f.dropped num den = f.dropped num' den)
    (hSame : num * twoTo f.depth
        / (den * twoTo (f.dropped num' den)) =
      num' * twoTo f.depth
        / (den * twoTo (f.dropped num' den)))
    (hUp : f.RoundsUp num den) : f.RoundsUp num' den := by
  simp only [RoundsUp, hDropped] at hUp ⊢
  generalize den * twoTo (f.dropped num' den) = step at *
  generalize num * twoTo f.depth = n at *
  generalize num' * twoTo f.depth = n' at *
  have hSplit := Nat.div_add_mod n step
  have hSplit' := Nat.div_add_mod n' step
  rw [hSame] at hSplit hUp
  omega

/- A greater ratio does not round to a smaller code. -/
theorem round_mono
    (hPrecision : 0 < f.precision)
    (hLess : num ≤ num') :
    f.round num den ≤ f.round num' den := by
  have hScaled : num * twoTo f.depth ≤ num' * twoTo f.depth :=
    Nat.mul_le_mul_right _ hLess
  have hCapped : ∀ {a b : Nat}, a ≤ b →
      min f.infinity a ≤ min f.infinity b := by
    omega
  rw [round_eq, round_eq]
  apply hCapped
  have hPlaces : f.dropped num den ≤ f.dropped num' den :=
    dropped_mono hLess
  rcases Nat.lt_or_eq_of_le hPlaces with hDropped | hDropped
  · -- the codes of fewer places all come first
    have hSmall := (significand_bounds hPrecision num den).1
    have hLarge := (significand_bounds hPrecision num' den).2
      (by omega)
    have hStep := Nat.mul_le_mul_right f.binade
      (Nat.succ_le_of_lt hDropped)
    rw [Nat.succ_mul] at hStep
    unfold floorCode
    split_ifs <;> omega
  · -- of the same places, the quotients and the rests decide
    have hFloor : num * twoTo f.depth
          / (den * twoTo (f.dropped num' den)) ≤
        num' * twoTo f.depth
          / (den * twoTo (f.dropped num' den)) :=
      Nat.div_le_div_right hScaled
    rw [floorCode, floorCode, hDropped]
    rcases Nat.lt_or_eq_of_le hFloor with hSmaller | hSame
    · split_ifs <;> omega
    · have hUp : f.RoundsUp num den → f.RoundsUp num' den :=
        roundsUp_of_le hScaled hDropped hSame
      rw [hSame]
      split_ifs with hFirst hSecond
      · exact Nat.le_refl _
      · exact absurd (hUp hFirst) hSecond
      · exact Nat.le_succ _
      · exact Nat.le_refl _

end Format

namespace Binary

variable {f : Format}

/- A greater natural is rounded to no smaller code. -/
theorem ofNat_code_mono
    (hPrecision : 0 < f.precision)
    {m n : Nat}
    (hLess : m ≤ n) :
    (ofNat m : Binary f).code ≤ (ofNat n : Binary f).code :=
  Format.round_mono hPrecision hLess

/- A product of greater factors has no smaller code. -/
theorem mul_code_mono
    (hPrecision : 0 < f.precision)
    {x y z w : Binary f}
    (hLeft : x.code ≤ y.code)
    (hRight : z.code ≤ w.code) :
    (x.mul z).code ≤ (y.mul w).code :=
  Format.round_mono hPrecision
    (Nat.mul_le_mul (f.units_mono hLeft) (f.units_mono hRight))

end Binary

end Factbase
