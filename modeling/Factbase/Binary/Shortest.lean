import Factbase.Binary.Format

/-
  This file defines the shortest decimal significand that
  reads back as a given floating point number.

  The reals that round to a number form an interval, closed
  when the code of the number is even.  The coarsest power of
  ten with a multiple in the interval fixes the digit count,
  and the multiple nearest to the number fixes the digits.

  Key definitions include:
    * `Tie`
    * `Decimal`
    * `Format.rounds`
    * `Format.shortest`
-/

namespace Factbase

------------------------------------------------------------
-- Decimal significands
------------------------------------------------------------

/- What becomes of a number halfway between two decimals. -/
inductive Tie where
  | even
  | up
deriving DecidableEq, Repr

/- A decimal significand and the power of ten that scales it. -/
structure Decimal where
  digits : Nat
  exponent : Int
deriving DecidableEq, Repr

namespace Decimal

/- The numerator of a decimal as a ratio. -/
def num (d : Decimal) : Nat :=
  d.digits * tenTo d.exponent.toNat

/- The denominator of a decimal as a ratio. -/
def den (d : Decimal) : Nat :=
  tenTo (-d.exponent).toNat

end Decimal

------------------------------------------------------------
-- The interval of a number
------------------------------------------------------------

namespace Format

/-
  Twice the lower end of the interval of a code, counted in
  least positive numbers.
-/
def lower
    (f : Format)
    (code : Nat) : Nat :=
  f.units (code - 1) + f.units code

/- Twice the upper end of the interval of a code. -/
def upper
    (f : Format)
    (code : Nat) : Nat :=
  f.units code + f.units (code + 1)

/- A decimal lies in the interval of a code. -/
def rounds
    (f : Format)
    (code : Nat)
    (d : Decimal) : Bool :=
  let x := d.num * twoTo (f.depth + 1)
  let low := f.lower code * d.den
  let high := f.upper code * d.den
  if code % 2 = 0 then low ≤ x && x ≤ high
  else low < x && x < high

------------------------------------------------------------
-- The shortest decimal
------------------------------------------------------------

/-
  The multiples of a power of ten on both sides of a code,
  the nearer one first.
-/
def beside
    (f : Format)
    (tie : Tie)
    (code : Nat)
    (exponent : Int) : List Decimal :=
  let num := f.units code * tenTo (-exponent).toNat
  let den := twoTo f.depth * tenTo exponent.toNat
  let low := num / den
  let rest := num % den
  let below : Decimal := ⟨low, exponent⟩
  let above : Decimal := ⟨low + 1, exponent⟩
  let upwards := den < 2 * rest ∨
    (den = 2 * rest ∧ (tie = .up ∨ low % 2 = 1))
  if upwards then [above, below] else [below, above]

/- The first power of ten, going down, with a decimal in the
   interval. -/
def search
    (f : Format)
    (tie : Tie)
    (code : Nat) : Nat → Int → Decimal
  | 0, exponent => ⟨0, exponent⟩
  | fuel + 1, exponent =>
      match (f.beside tie code exponent).find? (f.rounds code) with
      | some d => d
      | none => search f tie code fuel (exponent - 1)

/- A power of ten above every finite number of a code's size. -/
def ceiling
    (f : Format)
    (code : Nat) : Int :=
  let size := (Nat.log2 (f.units code) : Int) - f.depth
  (size + 1) * 30103 / 100000 + 1

/- The shortest decimal that rounds to a code, nearest first. -/
def shortest
    (f : Format)
    (tie : Tie)
    (code : Nat) : Decimal :=
  f.search tie code 24 (f.ceiling code)

end Format

end Factbase
