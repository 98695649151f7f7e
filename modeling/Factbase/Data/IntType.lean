import Factbase.Binary.Powers

/-
  This file defines the types of integers that a caller may
  ask for.

  Key definitions include:
    * `IntType`
    * `IntType.name`
    * `IntType.holds`
-/

namespace Factbase

/- A type of integers of a number of bits. -/
structure IntType where
  signed : Bool
  bits : Nat
deriving DecidableEq, Repr

namespace IntType

/- The short name of a type. -/
def name (t : IntType) : String :=
  (if t.signed then "i" else "u") ++ toString t.bits

/- The integers of a type. -/
def holds
    (t : IntType)
    (n : Int) : Bool :=
  if t.signed then
    -twoTo (t.bits - 1) ≤ n && n < twoTo (t.bits - 1)
  else 0 ≤ n && n < twoTo t.bits

/- Signed integers of 64 bits. -/
def i64 : IntType :=
  ⟨true, 64⟩

end IntType

end Factbase
