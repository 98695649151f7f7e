/-
  This file defines the size of a text in its stored form.

  Key definitions include:
    * `byteLength`
-/

namespace Factbase

/- Bytes that a text takes in UTF-8. -/
def byteLength : List Char → Nat
  | [] => 0
  | c :: cs => c.utf8Size + byteLength cs

end Factbase
