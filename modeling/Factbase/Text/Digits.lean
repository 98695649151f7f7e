/-
  This file defines decimal and hexadecimal numerals as lists
  of characters: how a number is written, and how the digits
  at the front of a text are read.

  Key definitions include:
    * `Digits.write`
    * `Digits.writeInt`
    * `Digits.padded`
    * `Digits.hex`
    * `Digits.value`
    * `Digits.hexValue?`
    * `Digits.character?`
-/

namespace Factbase.Digits

------------------------------------------------------------
-- Writing
------------------------------------------------------------

/- The decimal numeral of a number, without leading zeros. -/
def write (n : Nat) : List Char :=
  Nat.toDigits 10 n

/- The decimal numeral of an integer, with a minus sign below zero. -/
def writeInt : Int → List Char
  | .ofNat n => write n
  | .negSucc n => '-' :: write (n + 1)

/- A decimal numeral filled up with zeros to a least width. -/
def padded
    (width : Nat)
    (n : Nat) : List Char :=
  (write n).leftpad width '0'

/- The lower-case hexadecimal numeral of a number. -/
def hex (n : Nat) : List Char :=
  Nat.toDigits 16 n

/- A hexadecimal numeral filled up with zeros to a least width. -/
def paddedHex
    (width : Nat)
    (n : Nat) : List Char :=
  (hex n).leftpad width '0'

------------------------------------------------------------
-- Reading
------------------------------------------------------------

/- The value of a decimal digit. -/
def digit (c : Char) : Nat :=
  c.toNat - '0'.toNat

/- The number that a list of decimal digits stands for. -/
def value (cs : List Char) : Nat :=
  Nat.ofDigitChars 10 cs 0

/- The value of a hexadecimal digit of either case. -/
def hexDigit? (c : Char) : Option Nat :=
  if c.isDigit then some (digit c)
  else if 'a' ≤ c ∧ c ≤ 'f' then some (c.toNat - 'a'.toNat + 10)
  else if 'A' ≤ c ∧ c ≤ 'F' then some (c.toNat - 'A'.toNat + 10)
  else none

/- The number that a list of hexadecimal digits stands for. -/
def hexValue? (cs : List Char) : Option Nat :=
  cs.foldl
    (fun acc c => do
      let n ← acc
      let d ← hexDigit? c
      pure (16 * n + d))
    (some 0)

/- The character of a number, unless it is half of a pair. -/
def character? (n : Nat) : Option Char :=
  if h : n.isValidChar then some (Char.ofNatAux n h) else none

------------------------------------------------------------
-- Facts
------------------------------------------------------------

/- Reading a written number gives it back. -/
theorem value_write (n : Nat) : value (write n) = n :=
  Nat.ofDigitChars_toDigits (by decide) (by decide)

/- A written number holds digits only. -/
theorem isDigit_of_mem_write
    {n : Nat}
    {c : Char}
    (h : c ∈ write n) : c.isDigit = true :=
  Nat.isDigit_of_mem_toDigits (by decide) (by decide) h

/- A written number has at least one digit. -/
theorem write_ne_nil (n : Nat) : write n ≠ [] := by
  have h : 0 < (write n).length := Nat.length_toDigits_pos
  intro hNil
  simp [hNil] at h

end Factbase.Digits
