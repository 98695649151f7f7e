/-
  This file defines classes of characters that are given by
  lists of code point ranges.

  Key definitions include:
    * `Ranges`
    * `Ranges.has`
    * `Ranges.blank`
    * `isBlank`
    * `trimLeft`
-/

namespace Factbase

------------------------------------------------------------
-- Classes of characters
------------------------------------------------------------

/- Code point ranges, both ends included, in ascending order. -/
abbrev Ranges :=
  List (Nat × Nat)

/- A character lies in one of the ranges. -/
def Ranges.has
    (rs : Ranges)
    (c : Char) : Bool :=
  rs.any fun r => r.1 ≤ c.toNat && c.toNat ≤ r.2

------------------------------------------------------------
-- White space
------------------------------------------------------------

/- The characters with the Unicode property White_Space. -/
def Ranges.blank : Ranges :=
  [(0x9, 0xd), (0x20, 0x20), (0x85, 0x85), (0xa0, 0xa0),
   (0x1680, 0x1680), (0x2000, 0x200a), (0x2028, 0x2029),
   (0x202f, 0x202f), (0x205f, 0x205f), (0x3000, 0x3000)]

/- A character is white space. -/
def isBlank (c : Char) : Bool :=
  Ranges.blank.has c

/- A text without the white space at its front. -/
def trimLeft (cs : List Char) : List Char :=
  cs.dropWhile isBlank

/- A text without the white space at its front and its end. -/
def trim (cs : List Char) : List Char :=
  (trimLeft (trimLeft cs).reverse).reverse

end Factbase
