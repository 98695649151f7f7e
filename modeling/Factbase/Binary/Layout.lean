import Factbase.Binary.Shortest
import Factbase.Text.Digits

/-
  This file defines how floating point numbers are written.

  A layout states which decimal exponents are written
  positionally, whether whole numbers keep a fraction, and
  which way a tie between two shortest decimals goes.

  Key definitions include:
    * `Layout`
    * `Layout.write`
-/

namespace Factbase

------------------------------------------------------------
-- Layouts
------------------------------------------------------------

/- The decisions of a written form of floating point numbers. -/
structure Layout where
  tie : Tie
  /- Least and greatest positional exponent; none means all. -/
  positional : Option (Int × Int)
  /- Whole numbers are written with one zero after the point. -/
  fraction : Bool
deriving DecidableEq, Repr

namespace Layout

/- An exponent is written positionally. -/
def inRange
    (l : Layout)
    (exponent : Int) : Bool :=
  match l.positional with
  | none => true
  | some (low, high) => low ≤ exponent && exponent ≤ high

/-
  Digits in positional notation.  The exponent is that of the
  first digit.
-/
def place
    (l : Layout)
    (ds : List Char)
    (exponent : Int) : List Char :=
  if exponent < 0 then
    "0.".toList ++ List.replicate (-exponent - 1).toNat '0' ++ ds
  else
    let n := exponent.toNat + 1
    let whole := ds.take n ++ List.replicate (n - ds.length) '0'
    match ds.drop n with
    | [] => if l.fraction then whole ++ ".0".toList else whole
    | part => whole ++ '.' :: part

/- Digits in scientific notation, the exponent always signed. -/
def scientific
    (ds : List Char)
    (exponent : Int) : List Char :=
  let lead := match ds with
    | d :: e :: r => d :: '.' :: e :: r
    | r => r
  let sign := if exponent < 0 then '-' else '+'
  lead ++ 'e' :: sign :: Digits.write exponent.natAbs

/- A magnitude other than zero. -/
def magnitude
    {f : Format}
    (l : Layout)
    (x : Binary f) : List Char :=
  let d := f.shortest l.tie x.code
  let ds := Digits.write d.digits
  let exponent := d.exponent + ds.length - 1
  if l.inRange exponent then l.place ds exponent
  else scientific ds exponent

/- The written form of a number. -/
def write
    {f : Format}
    (l : Layout)
    (x : Binary f) : List Char :=
  if x.isNaN then "NaN".toList
  else
    let sign := if x.negative then ['-'] else []
    if !x.isFinite then sign ++ "inf".toList
    else if x.isZero then sign ++ l.place ['0'] 0
    else sign ++ l.magnitude x

/- The positional form without exponents, shown to people. -/
def plain : Layout :=
  { tie := .up, positional := none, fraction := false }

end Layout

end Factbase
