import Factbase.Json.Scan
import Factbase.Json.Write
import Mathlib.Tactic.IntervalCases
import Mathlib.Tactic.SplitIfs

/-
  Written strings and what they read as.

  Every character reads back from the form in which it stands
  in a string, whatever follows it.

  Main declarations:
    * `Json.readCharsWithin_escape`
    * `Json.readChars_escaped`
-/

namespace Factbase.Json

variable {c : Char}
variable {rest : List Char}

------------------------------------------------------------
-- Characters
------------------------------------------------------------

/- Four hexadecimal digits are read, whatever follows them. -/
theorem fourHex_append
    {digits : List Char}
    {n : Nat}
    (hLength : digits.length = 4)
    (hValue : Digits.hexValue? digits = some n) :
    fourHex (digits ++ rest) = .ok (n, rest) := by
  have hBytes : ∀ cs : List Char, cs.length ≤ byteLength cs := by
    intro cs
    induction cs with
    | nil => exact Nat.le_refl 0
    | cons c cs ih =>
        have hSize := c.utf8Size_pos
        simp only [byteLength, List.length_cons]
        omega
  have hLong := hBytes (digits ++ rest)
  rw [List.length_append] at hLong
  have hTaken : (digits ++ rest).take 4 = digits :=
    List.take_left' hLength
  have hLeft : (digits ++ rest).drop 4 = rest :=
    List.drop_left' hLength
  rw [fourHex, if_neg (by omega), hTaken, if_neg (by omega),
    hValue, hLeft]

/- A control character is read from its number. -/
theorem codeUnit_paddedHex
    (hControl : c.toNat < 0x20) :
    codeUnit (Digits.paddedHex 4 c.toNat ++ rest) =
      .ok (c, rest) := by
  have hChar : Char.ofNat c.toNat = c := Char.ofNat_toNat c
  generalize c.toNat = n at hControl hChar
  have hDigits :
      (Digits.paddedHex 4 n).length = 4 ∧
        Digits.hexValue? (Digits.paddedHex 4 n) = some n := by
    interval_cases n <;> decide
  rw [codeUnit, fourHex_append hDigits.1 hDigits.2]
  simp only [bind, Except.bind]
  rw [if_neg (by omega), if_neg (by omega), hChar]

/- A character reads back from its form in a string. -/
theorem readCharsWithin_escape
    (fuel : Nat)
    (c : Char)
    (rest : List Char) :
    readCharsWithin (fuel + 1) (escape c ++ rest) =
      (readCharsWithin fuel rest).map
        fun (cs, r) => (c :: cs, r) := by
  have hEscape : ∀ r : List Char, escaped r = .ok (c, rest) →
      readCharsWithin (fuel + 1) ('\\' :: r) =
        (readCharsWithin fuel rest).map
          fun (cs, r) => (c :: cs, r) := by
    intro r hRead
    rw [readCharsWithin, hRead]
    simp only [bind, Except.bind]
    cases readCharsWithin fuel rest <;> rfl
  unfold escape
  split_ifs with hQuote hSlash hBack hFeed hLine hReturn hTab
    hControl
  · subst hQuote
    exact hEscape _ rfl
  · subst hSlash
    exact hEscape _ rfl
  · subst hBack
    exact hEscape _ rfl
  · subst hFeed
    exact hEscape _ rfl
  · subst hLine
    exact hEscape _ rfl
  · subst hReturn
    exact hEscape _ rfl
  · subst hTab
    exact hEscape _ rfl
  · exact hEscape _ (codeUnit_paddedHex hControl)
  · rw [List.singleton_append, readCharsWithin, if_neg hControl]
    · cases readCharsWithin fuel rest <;> rfl
    · exact hQuote
    · exact hSlash

------------------------------------------------------------
-- Strings
------------------------------------------------------------

theorem escape_ne_nil (c : Char) : escape c ≠ [] := by
  unfold escape
  split_ifs <;> simp

theorem readCharsWithin_escaped
    {fuel : Nat}
    {cs : List Char}
    (hFuel : cs.length < fuel) :
    readCharsWithin fuel (cs.flatMap escape ++ '"' :: rest) =
      .ok (cs, rest) := by
  induction cs generalizing fuel with
  | nil =>
      cases fuel with
      | zero => cases hFuel
      | succ fuel => rfl
  | cons c cs ih =>
      cases fuel with
      | zero => cases hFuel
      | succ fuel =>
          rw [List.length_cons] at hFuel
          rw [List.flatMap_cons, List.append_assoc,
            readCharsWithin_escape,
            ih (Nat.lt_of_succ_lt_succ hFuel)]
          rfl

/- A string is read up to its closing quote. -/
theorem readChars_escaped (cs rest : List Char) :
    readChars (cs.flatMap escape ++ '"' :: rest) =
      .ok (cs, rest) := by
  have hLength : cs.length ≤ (cs.flatMap escape).length := by
    induction cs with
    | nil => exact Nat.le_refl 0
    | cons c cs ih =>
        have hHead := List.length_pos_iff.mpr (escape_ne_nil c)
        simp only [List.flatMap_cons, List.length_append,
          List.length_cons]
        omega
  apply readCharsWithin_escaped
  rw [List.length_append]
  omega

end Factbase.Json
