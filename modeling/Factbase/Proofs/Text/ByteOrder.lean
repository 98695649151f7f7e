import Factbase.Store.Row
import Mathlib.Tactic.SplitIfs

/-
  The order of strings and the order of their bytes.

  The database compares texts byte by byte, while strings are
  compared character by character.  UTF-8 keeps the order of
  characters, so both give the same order.

  Main declarations:
    * `utf8`
    * `utf8_lt_iff`
    * `compare_eq_lt_iff_utf8_lt`
-/

namespace Factbase

------------------------------------------------------------
-- Bytes of a Text
------------------------------------------------------------

/- The bytes of a text in UTF-8. -/
def utf8 (s : String) : List UInt8 :=
  s.toUTF8.data.toList

theorem utf8_eq_flatMap (s : String) :
    utf8 s = s.toList.flatMap String.utf8EncodeChar := by
  have hBytes : s.toUTF8 = s.toList.utf8Encode := by
    rw [String.toUTF8_eq_toByteArray, String.utf8Encode_toList]
  rw [utf8, hBytes, List.utf8Encode,
    List.toList_data_toByteArray]

------------------------------------------------------------
-- Order of Characters
------------------------------------------------------------

/-
  A smaller character has smaller bytes, whatever follows
  either of them: the bytes of one character are never the
  start of those of another.
-/
theorem utf8EncodeChar_append_lt
    {a b : Char}
    (hLess : a < b)
    (xs ys : List UInt8) :
    String.utf8EncodeChar a ++ xs <
      String.utf8EncodeChar b ++ ys := by
  have hCode : a.val.toNat < b.val.toNat :=
    UInt32.lt_iff_toNat_lt.mp hLess
  have hMost : b.val.toNat < 1114112 := by
    have hValid := b.valid
    simp only [UInt32.isValidChar, Nat.isValidChar] at hValid
    omega
  simp only [String.utf8EncodeChar]
  generalize a.val.toNat = m at hCode ⊢
  generalize b.val.toNat = n at hCode hMost ⊢
  -- one case for each pair of sizes
  split_ifs <;>
    simp only [List.cons_append, List.nil_append,
      List.cons_lt_cons_iff, UInt8.lt_iff_toNat_lt,
      ← UInt8.toNat_inj, UInt8.toNat_ofNat'] <;>
    simp (disch := omega) only [Nat.mod_eq_of_lt] <;>
    omega

/- Texts compare by bytes as by characters. -/
theorem flatMap_utf8EncodeChar_lt
    {xs ys : List Char}
    (hLess : xs < ys) :
    xs.flatMap String.utf8EncodeChar <
      ys.flatMap String.utf8EncodeChar := by
  induction hLess with
  | nil =>
      rename_i y ys
      rcases List.exists_cons_of_ne_nil
          (String.utf8EncodeChar_ne_nil (c := y)) with
        ⟨head, tail, hEncoded⟩
      simp [hEncoded]
  | rel hHead =>
      simp only [List.flatMap_cons]
      exact utf8EncodeChar_append_lt hHead _ _
  | cons _ ih =>
      simp only [List.flatMap_cons]
      exact List.append_left_lt ih

/- The order of strings is that of their bytes. -/
theorem utf8_lt_iff {s t : String} :
    utf8 s < utf8 t ↔ s < t := by
  simp only [utf8_eq_flatMap]
  constructor
  · intro hBytes
    rcases Std.lt_trichotomy s t with hLess | rfl | hGreater
    · exact hLess
    · exact absurd hBytes (List.lt_irrefl _)
    · exact absurd (flatMap_utf8EncodeChar_lt hGreater)
        (List.lt_asymm hBytes)
  · exact flatMap_utf8EncodeChar_lt

/- Strings of which neither comes first are the same. -/
theorem eq_of_not_utf8_lt
    {s t : String}
    (hFirst : ¬ utf8 s < utf8 t)
    (hSecond : ¬ utf8 t < utf8 s) : s = t := by
  rcases Std.lt_trichotomy s t with hLess | hEq | hGreater
  · exact absurd (utf8_lt_iff.mpr hLess) hFirst
  · exact hEq
  · exact absurd (utf8_lt_iff.mpr hGreater) hSecond

theorem utf8_inj {s t : String} : utf8 s = utf8 t ↔ s = t := by
  constructor
  · intro hBytes
    apply eq_of_not_utf8_lt <;> rw [hBytes] <;>
      exact List.lt_irrefl _
  · exact congrArg utf8

/- Comparison of strings is comparison of their bytes. -/
theorem compare_eq_lt_iff_utf8_lt {s t : String} :
    compare s t = .lt ↔ utf8 s < utf8 t := by
  rw [utf8_lt_iff]
  exact compareOfLessAndEq_eq_lt

end Factbase
