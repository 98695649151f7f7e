/-
  This file defines the powers that number formats are made of.

  Key definitions include:
    * `twoTo`
    * `tenTo`
-/

namespace Factbase

def twoTo (n : Nat) : Nat :=
  Nat.pow 2 n

/- A power of ten. -/
def tenTo (n : Nat) : Nat :=
  Nat.pow 10 n

end Factbase
