import Factbase.Binary.Powers

/-
  This file defines binary floating point numbers as sign and
  magnitude code, and rounding of exact ratios to them.

  The magnitude code of a finite number counts the numbers of
  its format from zero upwards, so codes are ordered as the
  numbers they stand for.  Every number is a whole multiple
  of the least positive number of its format.

  Key definitions include:
    * `Format`
    * `Format.units`
    * `Format.round`
    * `Binary`
    * `Binary64`
    * `Binary32`
-/

namespace Factbase

------------------------------------------------------------
-- Formats
------------------------------------------------------------

/- A binary interchange format. -/
structure Format where
  /- Bits of a significand, the leading one included. -/
  precision : Nat
  /- The least positive number is two to the minus this. -/
  depth : Nat
  /- Bits of a whole number, the sign included. -/
  width : Nat
  /- The magnitude code of infinity. -/
  infinity : Nat
deriving DecidableEq, Repr

namespace Format

/- The 64-bit format. -/
def double : Format :=
  { precision := 53, depth := 1074, width := 64,
    infinity := 0x7ff0000000000000 }

/- The 32-bit format. -/
def single : Format :=
  { precision := 24, depth := 149, width := 32,
    infinity := 0x7f800000 }

/- Codes in one binade. -/
def binade (f : Format) : Nat :=
  twoTo (f.precision - 1)

/- The significand of a magnitude code. -/
def significand
    (f : Format)
    (code : Nat) : Nat :=
  if code < f.binade then code
  else f.binade + code % f.binade

/- The power of two that scales the significand of a code. -/
def shift
    (f : Format)
    (code : Nat) : Nat :=
  code / f.binade - 1

/- A magnitude as a multiple of the least positive number. -/
def units
    (f : Format)
    (code : Nat) : Nat :=
  f.significand code * twoTo (f.shift code)

/-
  The magnitude code nearest to a ratio.  A ratio halfway
  between two codes goes to the even one; one too large for
  the format goes to infinity.
-/
def round
    (f : Format)
    (num den : Nat) : Nat :=
  let scaled := num * twoTo f.depth
  let drop := Nat.log2 (scaled / den) + 1 - f.precision
  let step := den * twoTo drop
  let low := scaled / step
  let rest := scaled % step
  let code := drop * f.binade + low
  let up := step < 2 * rest ∨ (step = 2 * rest ∧ low % 2 = 1)
  min f.infinity (if up then code + 1 else code)

end Format

------------------------------------------------------------
-- Numbers
------------------------------------------------------------

/-
  A floating point number.  Magnitude codes above that of
  infinity stand for no number.
-/
structure Binary (f : Format) where
  negative : Bool
  code : Nat
deriving DecidableEq, Repr

abbrev Binary64 :=
  Binary Format.double

/- Numbers of the 32-bit format. -/
abbrev Binary32 :=
  Binary Format.single

namespace Binary

variable {f : Format}

/- A number that is neither infinite nor missing. -/
def isFinite (x : Binary f) : Bool :=
  x.code < f.infinity

/- No number. -/
def isNaN (x : Binary f) : Bool :=
  f.infinity < x.code

/- Positive or negative zero. -/
def isZero (x : Binary f) : Bool :=
  x.code = 0

/- The value that is no number. -/
def nan : Binary f :=
  ⟨false, f.infinity + f.binade / 2⟩

/- The bit pattern of a number. -/
def bits (x : Binary f) : Nat :=
  (if x.negative then twoTo (f.width - 1) else 0) + x.code

/- The number with the opposite sign. -/
def neg (x : Binary f) : Binary f :=
  ⟨!x.negative, x.code⟩

/- The number nearest to a natural number. -/
def ofNat (n : Nat) : Binary f :=
  ⟨false, f.round n 1⟩

/- The number nearest to an integer. -/
def ofInt (n : Int) : Binary f :=
  ⟨n < 0, f.round n.natAbs 1⟩

/- The product of two finite numbers, rounded once. -/
def mul (x y : Binary f) : Binary f :=
  ⟨x.negative != y.negative,
    f.round
      (f.units x.code * f.units y.code)
      (twoTo (2 * f.depth))⟩

/- The quotient of two finite numbers, rounded once. -/
def div (x y : Binary f) : Binary f :=
  ⟨x.negative != y.negative,
    f.round (f.units x.code) (f.units y.code)⟩

/-
  Equality of numbers: what is no number differs from
  everything, and the two zeros are equal.
-/
def equals (x y : Binary f) : Bool :=
  !x.isNaN && !y.isNaN &&
    ((x.isZero && y.isZero) || x = y)

/- The nearest number of another format. -/
def convert
    (x : Binary f)
    (g : Format) : Binary g :=
  if x.isNaN then nan
  else if x.code = f.infinity then ⟨x.negative, g.infinity⟩
  else ⟨x.negative, g.round (f.units x.code) (twoTo f.depth)⟩

end Binary

end Factbase
