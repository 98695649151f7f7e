import Factbase.Proofs.Binary.ShortestLength
import Factbase.Proofs.Json.FloatTexts

/-
  The reader takes the numeral of a number as it stands.

  A number is written with so few digits that the reader keeps
  them all.  So it scales exactly the significand that is
  written by exactly the power of ten that is written, and only
  the operations of the scaling round.

  Key definitions include:
    * `Json.ReadsInFull`
    * `Binary.numeral`

  Main declarations:
    * `Json.readsInFull_unsigned`
    * `Json.scale_numeral`
-/

namespace Factbase

/- The decimal that a number is written as, but for the sign. -/
def Binary.numeral (x : Binary64) : Decimal :=
  .ofNumeral (Layout.double.unsigned x)

namespace Json

variable {x : Binary64}

------------------------------------------------------------
-- Numerals That Are Read in Full
------------------------------------------------------------

/- The reader scales the decimal that a text stands for. -/
def ReadsInFull (text : List Char) : Prop :=
  (Decimal.ofNumeral text).digits ≤ significandLimit ∧
    ∀ minus rest, Ends rest →
      readUnsigned minus (text ++ rest) =
        assemble minus (Decimal.ofNumeral text).digits
          (Decimal.ofNumeral text).exponent rest

/- A point moves the exponent by the digits after it. -/
theorem ofNumeral_of_pointed
    {whole part : List Char}
    (hPointed : Pointed whole part) :
    Decimal.ofNumeral (whole ++ '.' :: part) =
      ⟨Digits.value (whole ++ part), -(part.length : Int)⟩ := by
  have hNumeral := Decimal.ofNumeral_pointed
    hPointed.wholeDigits hPointed.partDigits ends_nil.noDigit
  have hNone : Decimal.exponentPart [] = 0 := rfl
  rw [List.append_nil, hNone, Int.zero_sub] at hNumeral
  exact hNumeral

/- Digits that fit are all taken, with a point among them. -/
theorem Pointed.readsInFull
    {whole part : List Char}
    (hPointed : Pointed whole part)
    (hFits : Digits.value (whole ++ part) ≤ significandLimit) :
    ReadsInFull (whole ++ '.' :: part) := by
  rw [ReadsInFull, ofNumeral_of_pointed hPointed]
  refine ⟨hFits, fun minus rest hEnds => ?_⟩
  rw [Digits.value_append] at hFits ⊢
  exact hPointed.read (gathers_all hPointed.partDigits hFits)
    minus hEnds

/- Digits around a point fit if one of them is behind it. -/
theorem Pointed.value_lt
    {whole part : List Char}
    (hPointed : Pointed whole part)
    (hOne : part.length = 1) :
    Digits.value (whole ++ part) < 10 ^ 17 := by
  refine Nat.lt_of_lt_of_le (Digits.value_lt
    (List.forall_mem_append.mpr
      ⟨hPointed.wholeDigits, hPointed.partDigits⟩)) ?_
  refine Nat.pow_le_pow_right (by decide) ?_
  have hShort := hPointed.short
  rw [List.length_append]
  omega

theorem readsInFull_scientific
    {d : Char}
    {tail : List Char}
    {exponent : Int}
    (hDigits : ∀ c ∈ d :: tail, c.isDigit = true)
    (hExponent : exponent.natAbs ≤ exponentLimit)
    (hFits : Digits.value (d :: tail) ≤ significandLimit) :
    ReadsInFull (Layout.scientific (d :: tail) exponent) := by
  have hNumeral := Decimal.ofNumeral_scientific hDigits
    (List.cons_ne_nil d tail) exponent
  rw [ReadsInFull, hNumeral]
  refine ⟨hFits, fun minus rest hEnds => ?_⟩
  rw [Digits.value_cons] at hFits
  rw [read_scientific minus hDigits hExponent
    (gathers_all (List.forall_mem_cons.mp hDigits).2 hFits)
    hEnds, ← Digits.value_cons]
  congr 1
  simp only [List.length_cons]
  omega

------------------------------------------------------------
-- Numerals of Numbers
------------------------------------------------------------

theorem readsInFull_zero :
    ReadsInFull (Layout.double.place ['0'] 0) := by
  have hPointed : Pointed ['0'] ['0'] :=
    ⟨by simp, by simp, by simp, by simp, by simp, by simp⟩
  exact hPointed.readsInFull (by decide)

/- No positive float is written with more digits than fit. -/
theorem readsInFull_magnitude
    (hPositive : 0 < x.code)
    (hFinite : x.code < Format.double.infinity) :
    ReadsInFull (Layout.double.magnitude x) := by
  rcases Format.shortest_spec .even hPositive hFinite
    with ⟨hRounds, hLow, hHigh⟩
  have hShort :=
    Format.digits_shortest_short .even hPositive hFinite
  have hShape : Layout.double.magnitude x =
      let shortest := Format.double.shortest .even x.code
      let ds := Digits.write shortest.digits
      let exponent := shortest.exponent + ds.length - 1
      if Layout.double.inRange exponent then
        Layout.double.place ds exponent
      else Layout.scientific ds exponent := rfl
  generalize Format.double.shortest .even x.code = shortest at *
  rcases exists_write_pos
    (Format.digits_pos_of_rounds hPositive hRounds)
    with ⟨d, tail, hWrite, hDigits, hLead, _⟩
  have hValue := Digits.value_write shortest.digits
  have hLength : (Digits.write shortest.digits).length ≤ 18 :=
    length_write_le (by decide)
      (Nat.lt_of_lt_of_le hShort (by decide))
  have hLimit : significandLimit = 2 ^ 64 - 1 := rfl
  have hExponentLimit : exponentLimit = 2147483647 := rfl
  rw [hShape]
  simp only [hWrite, List.length_cons] at hLength hValue ⊢
  split_ifs with hRange
  · have hExponent : shortest.exponent
        + ((tail.length + 1 : Nat) : Int) - 1 ≤ 15 := by
      simp only [Layout.inRange, Layout.double,
        Bool.and_eq_true, decide_eq_true_eq] at hRange
      exact hRange.2
    rcases exists_pointed hDigits hLead hExponent
      with ⟨whole, part, hPointed, hPlace, hOne | hSame⟩
    · have hFew := hPointed.value_lt hOne
      rw [hPlace]
      exact hPointed.readsInFull (by omega)
    · rw [hPlace]
      exact hPointed.readsInFull (by omega)
  · exact readsInFull_scientific hDigits (by omega) (by omega)

theorem readsInFull_unsigned
    (hFinite : x.code < Format.double.infinity) :
    ReadsInFull (Layout.double.unsigned x) := by
  rw [Layout.unsigned]
  split_ifs with hZero
  · exact readsInFull_zero
  · refine readsInFull_magnitude (Nat.pos_of_ne_zero ?_) hFinite
    simpa [Binary.isZero] using hZero

------------------------------------------------------------
-- Scaled Numerals
------------------------------------------------------------

/- Scaling does not change the sign. -/
theorem not_negative_scale
    {y z : Binary64}
    {exponent : Int}
    {fuel : Nat}
    (hScale : scale y exponent fuel = some z)
    (hPlus : y.negative = false) : z.negative = false := by
  induction fuel generalizing y exponent with
  | zero =>
      rw [scale, Option.some.injEq] at hScale
      rwa [← hScale]
  | succ fuel ih =>
      simp only [scale] at hScale
      split_ifs at hScale
      · rw [← Option.some.inj hScale, Binary.mul, hPlus]
        rfl
      · rw [← Option.some.inj hScale, Binary.div, hPlus]
        rfl
      · rwa [← Option.some.inj hScale]
      · refine ih hScale ?_
        rw [Binary.div, hPlus]
        rfl

/- A number reads as its scaled numeral with the sign written. -/
theorem scale_numeral
    (hFinite : x.isFinite = true) :
    scale (.ofNat x.numeral.digits) x.numeral.exponent 4 =
        some ⟨false, x.reread.code⟩ ∧
      x.reread.negative = x.negative := by
  have hCode : x.code < Format.double.infinity := by
    simpa [Binary.isFinite] using hFinite
  rcases Layout.double.exists_unsigned_digit x with
    ⟨c, cs, hText, hDigit⟩
  have hWrite : Layout.double.write x =
      if x.negative then '-' :: c :: cs else c :: cs := by
    rw [Layout.double.write_of_isFinite hFinite, hText]
    split_ifs <;> rfl
  have hRead := (read_write hFinite).1
  have hAll : readUnsigned x.negative
      (Layout.double.unsigned x ++ []) =
        assemble x.negative x.numeral.digits x.numeral.exponent [] :=
    (readsInFull_unsigned hCode).2 x.negative [] ends_nil
  rw [List.append_nil, hText] at hAll
  rw [hWrite, readNumber_signed x.negative hDigit, hAll, assemble]
    at hRead
  cases hScale : scale (.ofNat x.numeral.digits)
      x.numeral.exponent 4 with
  | none =>
      rw [hScale] at hRead
      cases hRead
  | some z =>
      have hPlus := not_negative_scale hScale rfl
      have hReread : (if x.negative then z.neg else z) =
          x.reread := by
        simpa [hScale] using hRead
      rcases z with ⟨negative, code⟩
      cases hPlus
      rw [← hReread]
      cases x.negative <;> exact ⟨rfl, rfl⟩

end Json

end Factbase
