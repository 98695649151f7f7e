import Factbase.Binary.Format
import Factbase.Text.Digits

/-
  This file defines the floating point number nearest to a
  decimal numeral.

  Key definitions include:
    * `Binary.ofDecimal`
    * `Binary.ofText?`
-/

namespace Factbase.Binary

variable {f : Format}

------------------------------------------------------------
-- Decimal significands
------------------------------------------------------------

/-
  The magnitude code nearest to a decimal significand times a
  power of ten.  Beyond 400 places on either side no format
  has a finite number other than zero.
-/
def decimalCode
    (f : Format)
    (digits : Nat)
    (exponent : Int) : Nat :=
  let size := (Digits.write digits).length + exponent
  if digits = 0 ∨ size < -400 then 0
  else if 400 < size then f.infinity
  else match exponent with
    | .ofNat e => f.round (digits * tenTo e) 1
    | .negSucc e => f.round digits (tenTo (e + 1))

/- The number nearest to a signed decimal numeral. -/
def ofDecimal
    (negative : Bool)
    (digits : Nat)
    (exponent : Int) : Binary f :=
  ⟨negative, decimalCode f digits exponent⟩

------------------------------------------------------------
-- Numerals
------------------------------------------------------------

/- The exponent at the end of a numeral, zero when there is none. -/
def exponentOf? : List Char → Option Int
  | [] => some 0
  | e :: cs =>
      if e ≠ 'e' ∧ e ≠ 'E' then none
      else match cs with
        | '-' :: ds => (digitsOf? ds).map fun n => -(n : Int)
        | '+' :: ds => (digitsOf? ds).map fun n => (n : Int)
        | ds => (digitsOf? ds).map fun n => (n : Int)
where
  /- A text of one or more digits. -/
  digitsOf? (ds : List Char) : Option Nat :=
    if ds ≠ [] ∧ ds.all Char.isDigit then some (Digits.value ds)
    else none

/- A numeral without a sign. -/
def unsigned?
    (negative : Bool)
    (cs : List Char) : Option (Binary f) :=
  let lower := cs.map Char.toLower
  if lower = "inf".toList ∨ lower = "infinity".toList then
    some ⟨negative, f.infinity⟩
  else if lower = "nan".toList then some nan
  else
    let whole := cs.takeWhile Char.isDigit
    let rest := cs.dropWhile Char.isDigit
    let (part, tail) := match rest with
      | '.' :: r => (r.takeWhile Char.isDigit, r.dropWhile Char.isDigit)
      | r => ([], r)
    if whole ++ part = [] then none
    else (exponentOf? tail).map fun e =>
      ofDecimal negative (Digits.value (whole ++ part))
        (e - part.length)

/- The number nearest to a numeral, if the text is one. -/
def ofText? (s : String) : Option (Binary f) :=
  match s.toList with
  | '-' :: cs => unsigned? true cs
  | '+' :: cs => unsigned? false cs
  | cs => unsigned? false cs

end Factbase.Binary
