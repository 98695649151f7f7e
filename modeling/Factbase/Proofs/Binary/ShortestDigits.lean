import Factbase.Binary.Shortest
import Factbase.Proofs.Binary.Rounding
import Mathlib.Tactic.Ring

/-
  The search for the shortest decimal finds one.

  It starts at a power of ten above the number and goes down.
  Once the power is half a step of the binade or less, the
  multiple of it below the number lies in the interval, so for
  the 64-bit format the search ends before it runs out.

  Main declarations:
    * `Format.rounds_below`
    * `Format.search_spec`
    * `Format.ceiling_fine`
    * `Format.shortest_spec`
-/

namespace Factbase

namespace Format

variable {f : Format}
variable {code : Nat}

------------------------------------------------------------
-- Multiples Below
------------------------------------------------------------

/- The multiple of a power of ten next below a number. -/
def below
    (f : Format)
    (code : Nat)
    (exponent : Int) : Decimal :=
  ⟨f.units code * tenTo (-exponent).toNat
    / (twoTo f.depth * tenTo exponent.toNat), exponent⟩

/- The decimal below a number is one of the two beside it. -/
theorem below_mem_beside
    (f : Format)
    (tie : Tie)
    (code : Nat)
    (exponent : Int) :
    f.below code exponent ∈ f.beside tie code exponent := by
  simp only [beside]
  split_ifs
  · exact List.mem_cons_of_mem _ List.mem_cons_self
  · exact List.mem_cons_self

theorem exponent_of_mem_beside
    {tie : Tie}
    {exponent : Int}
    {d : Decimal}
    (hMember : d ∈ f.beside tie code exponent) :
    d.exponent = exponent := by
  simp only [beside] at hMember
  split_ifs at hMember <;>
  · simp only [List.mem_cons, List.not_mem_nil, or_false]
      at hMember
    rcases hMember with rfl | rfl <;> rfl

/- A power of ten is at most half a step below a number. -/
def Fine
    (f : Format)
    (code : Nat)
    (exponent : Int) : Prop :=
  2 * (twoTo f.depth * tenTo exponent.toNat) ≤
    twoTo (f.shift (code - 1)) * tenTo (-exponent).toNat

/- Of a fine power, the multiple below is in the interval. -/
theorem rounds_below
    (hPositive : 0 < code)
    {exponent : Int}
    (hFine : f.Fine code exponent) :
    f.rounds code (f.below code exponent) = true := by
  have hAbove : 0 < twoTo (f.shift code) * tenTo (-exponent).toNat :=
    Nat.mul_pos (twoTo_pos _) (tenTo_pos _)
  have hDen : 0 < twoTo f.depth * tenTo exponent.toNat :=
    Nat.mul_pos (twoTo_pos _) (tenTo_pos _)
  have hRest := Nat.mod_lt
    (f.units code * tenTo (-exponent).toNat) hDen
  have hSplit := Nat.div_add_mod
    (f.units code * tenTo (-exponent).toNat)
    (twoTo f.depth * tenTo exponent.toNat)
  have hValue :
      (f.below code exponent).num * twoTo (f.depth + 1) =
        2 * (twoTo f.depth * tenTo exponent.toNat
          * (f.units code * tenTo (-exponent).toNat
            / (twoTo f.depth * tenTo exponent.toNat))) := by
    simp only [twoTo_succ, Decimal.num, below]
    ring
  have hLower : f.lower code * (f.below code exponent).den
      + twoTo (f.shift (code - 1)) * tenTo (-exponent).toNat =
        2 * (f.units code * tenTo (-exponent).toNat) := by
    have hLast := f.units_succ (code - 1)
    rw [Nat.sub_add_cancel hPositive] at hLast
    simp only [lower, Decimal.den, below, hLast]
    ring
  have hUpper : f.upper code * (f.below code exponent).den =
      2 * (f.units code * tenTo (-exponent).toNat)
        + twoTo (f.shift code) * tenTo (-exponent).toNat := by
    simp only [upper, Decimal.den, below, f.units_succ code]
    ring
  have hStrict :
      f.lower code * (f.below code exponent).den <
          (f.below code exponent).num * twoTo (f.depth + 1) ∧
        (f.below code exponent).num * twoTo (f.depth + 1) <
          f.upper code * (f.below code exponent).den := by
    unfold Fine at hFine
    omega
  simp only [rounds]
  split_ifs
  · simp [hStrict.1.le, hStrict.2.le]
  · simp [hStrict.1, hStrict.2]

------------------------------------------------------------
-- The Search
------------------------------------------------------------

/-
  If a fine power is among those tried, the search ends with a
  decimal in the interval, at that power or above it.
-/
theorem search_spec
    (tie : Tie)
    (hPositive : 0 < code)
    {fuel tried : Nat}
    {exponent : Int}
    (hTried : tried < fuel)
    (hFine : f.Fine code (exponent - tried)) :
    let d := f.search tie code fuel exponent
    f.rounds code d = true ∧
      exponent - tried ≤ d.exponent ∧ d.exponent ≤ exponent := by
  induction fuel generalizing exponent tried with
  | zero => cases hTried
  | succ fuel ih =>
      simp only [search]
      split
      case h_1 d hFound =>
        have hExponent := exponent_of_mem_beside
          (List.mem_of_find?_eq_some hFound)
        have hRounds := List.find?_some hFound
        exact ⟨hRounds, by omega, by omega⟩
      case h_2 hMissing =>
        cases tried with
        | zero =>
            rw [List.find?_eq_none] at hMissing
            have hBelow := hMissing _
              (f.below_mem_beside tie code exponent)
            rw [Int.natCast_zero, Int.sub_zero] at hFine
            exact absurd (rounds_below hPositive hFine) hBelow
        | succ tried =>
            have hNext : exponent - (tried + 1 : Nat) =
                exponent - 1 - tried := by
              omega
            rw [hNext] at hFine
            rcases ih (Nat.lt_of_succ_lt_succ hTried) hFine
              with ⟨hRounds, hLow, hHigh⟩
            exact ⟨hRounds, by omega, by omega⟩

theorem units_pos (hPositive : 0 < code) : 0 < f.units code := by
  have hFirst := f.units_mono (show 0 + 1 ≤ code from hPositive)
  have hLast := f.units_succ 0
  have hStep := twoTo_pos (f.shift 0)
  omega

/- A decimal in the interval is not beyond its ends. -/
theorem bounds_of_rounds
    {d : Decimal}
    (hRounds : f.rounds code d = true) :
    f.lower code * d.den ≤ d.num * twoTo (f.depth + 1) ∧
      d.num * twoTo (f.depth + 1) ≤ f.upper code * d.den := by
  simp only [rounds] at hRounds
  split_ifs at hRounds <;>
    simp only [Bool.and_eq_true, decide_eq_true_eq] at hRounds
  · exact hRounds
  · exact ⟨hRounds.1.le, hRounds.2.le⟩

/- Zero is in the interval of no other number. -/
theorem digits_pos_of_rounds
    (hPositive : 0 < code)
    {d : Decimal}
    (hRounds : f.rounds code d = true) : 0 < d.digits := by
  have hLower : 0 < f.lower code * d.den :=
    Nat.mul_pos
      (Nat.add_pos_right _ (units_pos hPositive))
      (tenTo_pos _)
  have hNum := Nat.lt_of_lt_of_le hLower
    (bounds_of_rounds hRounds).1
  apply Nat.pos_of_ne_zero
  intro hZero
  simp [Decimal.num, hZero] at hNum

/-
  The leading digits of a decimal in the interval, with zeros
  for the others, are not beyond the upper end.
-/
theorem leading_le_upper
    {d : Decimal}
    (hRounds : f.rounds code d = true)
    {left kept exponent : Nat}
    (hLeads : 10 ^ left * kept ≤ d.digits)
    (hExponent : (exponent : Int) = d.exponent + left) :
    kept * tenTo exponent * twoTo (f.depth + 1) ≤
      f.upper code := by
  have hDen : 0 < d.den := tenTo_pos _
  have hPowers : tenTo exponent * d.den =
      10 ^ left * tenTo d.exponent.toNat := by
    simp only [Decimal.den, tenTo_eq, ← Nat.pow_add]
    congr 1
    omega
  have hNum : kept * tenTo exponent * d.den ≤ d.num := by
    rw [Nat.mul_assoc, hPowers, ← Nat.mul_assoc,
      Nat.mul_comm kept]
    exact Nat.mul_le_mul_right _ hLeads
  apply Nat.le_of_mul_le_mul_right _ hDen
  calc kept * tenTo exponent * twoTo (f.depth + 1) * d.den
      = kept * tenTo exponent * d.den * twoTo (f.depth + 1) :=
        Nat.mul_right_comm _ _ _
    _ ≤ d.num * twoTo (f.depth + 1) :=
        Nat.mul_le_mul_right _ hNum
    _ ≤ f.upper code * d.den := (bounds_of_rounds hRounds).2

theorem upper_mono (f : Format) : Monotone f.upper :=
  fun _ _ hLess => Nat.add_le_add (f.units_mono hLess)
    (f.units_mono (Nat.succ_le_succ hLess))

------------------------------------------------------------
-- The 64-Bit Format
------------------------------------------------------------

theorem significand_lt (code : Nat) :
    double.significand code < 2 ^ 53 := by
  have hBinade : double.binade = 2 ^ 52 := rfl
  have hRest := Nat.mod_lt code double.binade_pos
  rw [significand]
  split_ifs <;> omega

/- A number has at most the bits of the one before and its step. -/
theorem log2_units_le (hPositive : 0 < code) :
    Nat.log2 (double.units code) ≤
      53 + double.shift (code - 1) := by
  have hLast := double.units_succ (code - 1)
  rw [Nat.sub_add_cancel hPositive] at hLast
  have hBound : double.units code ≤
      2 ^ (53 + double.shift (code - 1)) := by
    rw [Nat.pow_add, hLast, units, ← Nat.succ_mul]
    exact Nat.mul_le_mul_right _ (significand_lt _)
  have hLog := Nat.log_mono_right (b := 2) hBound
  rwa [Nat.log_pow (by decide), ← Nat.log2_eq_log_two] at hLog

/- Finite numbers have a limit to their bits. -/
theorem log2_units_lt
    (hPositive : 0 < code)
    (hFinite : code < double.infinity) :
    Nat.log2 (double.units code) < 2099 := by
  have hBinade : double.binade = 2 ^ 52 := rfl
  have hInfinity : double.infinity = 2047 * 2 ^ 52 := rfl
  have hLog := log2_units_le hPositive
  rw [shift, hBinade] at hLog
  omega

/- The last power of ten tried for numbers with some bits. -/
def lastTried (bits : Nat) : Int :=
  ((bits : Int) - 1074 + 1) * 30103 / 100000 + 1 - 23

/- The last power tried is fine enough, however many the bits. -/
theorem lastTried_fine
    {bits : Nat}
    (hBits : bits < 2099) :
    2 * (twoTo 1074 * tenTo (lastTried bits).toNat) ≤
      twoTo (bits - 53) * tenTo (-lastTried bits).toNat := by
  have hOne : tenTo 0 = 1 := rfl
  rw [← Nat.mul_assoc, ← twoTo_succ]
  rcases Int.le_total 0 (lastTried bits) with hWhole | hPart
  · -- places on the left, which the bits on the right hold
    have hNone : (-lastTried bits).toNat = 0 :=
      Int.toNat_of_nonpos (by omega)
    rw [hNone, hOne, Nat.mul_one]
    rw [lastTried] at hWhole ⊢
    calc twoTo 1075 * tenTo _
        ≤ twoTo 1075 * twoTo (bits - 53 - 1075) :=
          Nat.mul_le_mul_left _ (tenTo_le_twoTo (by omega))
      _ = twoTo (1075 + (bits - 53 - 1075)) :=
          (twoTo_add _ _).symm
      _ ≤ twoTo (bits - 53) := twoTo_mono (by omega)
  · -- places on the right, which hold the bits that lack there
    have hNone : (lastTried bits).toNat = 0 :=
      Int.toNat_of_nonpos hPart
    rw [hNone, hOne, Nat.mul_one]
    rw [lastTried] at hPart ⊢
    calc twoTo 1075
        ≤ twoTo (bits - 53 + (1075 - (bits - 53))) :=
          twoTo_mono (by omega)
      _ = twoTo (bits - 53) * twoTo (1075 - (bits - 53)) :=
          twoTo_add _ _
      _ ≤ twoTo (bits - 53) * tenTo _ :=
          Nat.mul_le_mul_left _ (twoTo_le_tenTo (by omega))

/- Some places below the ceiling, decimals are fine enough. -/
theorem ceiling_fine
    (hPositive : 0 < code)
    (hFinite : code < double.infinity) :
    double.Fine code (double.ceiling code - 23) := by
  have hStep := log2_units_le hPositive
  apply Nat.le_trans
    (lastTried_fine (log2_units_lt hPositive hFinite))
  apply Nat.mul_le_mul_right
  exact twoTo_mono (by omega)

/-
  The search for the shortest decimal of a finite number other
  than zero finds one in its interval.
-/
theorem shortest_spec
    (tie : Tie)
    (hPositive : 0 < code)
    (hFinite : code < double.infinity) :
    double.rounds code (double.shortest tie code) = true ∧
      -346 ≤ (double.shortest tie code).exponent ∧
      (double.shortest tie code).exponent ≤ 309 := by
  have hBits := log2_units_lt hPositive hFinite
  rcases search_spec (f := double) tie hPositive
    (show 23 < 24 by decide) (ceiling_fine hPositive hFinite)
    with ⟨hRounds, hLow, hHigh⟩
  have hDepth : double.depth = 1074 := rfl
  have hCeiling : double.ceiling code =
      ((Nat.log2 (double.units code) : Int) - 1074 + 1)
        * 30103 / 100000 + 1 := rfl
  refine ⟨hRounds, ?_, ?_⟩
  · exact Int.le_trans (by omega) hLow
  · exact Int.le_trans hHigh (by omega)

/- The greatest intervals and the finest powers have a limit. -/
theorem upper_infinity_lt :
    double.upper double.infinity * tenTo 346 < tenTo 1000 := by
  decide +kernel

/- The digits that are found are not too many to write. -/
theorem digits_shortest_lt
    (tie : Tie)
    (hPositive : 0 < code)
    (hFinite : code < double.infinity) :
    (double.shortest tie code).digits < tenTo 1000 := by
  rcases shortest_spec tie hPositive hFinite
    with ⟨hRounds, hLow, _⟩
  have hDen : (double.shortest tie code).den ≤ tenTo 346 :=
    tenTo_mono (by omega)
  apply Nat.lt_of_le_of_lt _ upper_infinity_lt
  calc (double.shortest tie code).digits
      ≤ (double.shortest tie code).num :=
        Nat.le_mul_of_pos_right _ (tenTo_pos _)
    _ ≤ (double.shortest tie code).num
          * twoTo (double.depth + 1) :=
        Nat.le_mul_of_pos_right _ (twoTo_pos _)
    _ ≤ double.upper code * (double.shortest tie code).den :=
        (bounds_of_rounds hRounds).2
    _ ≤ double.upper double.infinity * tenTo 346 :=
        Nat.mul_le_mul (double.upper_mono hFinite.le) hDen

end Format

end Factbase
