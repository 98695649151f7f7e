import Factbase.Proofs.Binary.ShortestDigits
import Factbase.Proofs.Json.Fractions
import Factbase.Proofs.Json.Reading

/-
  Written floating point numbers and what they read as.

  A finite number is written with a point or an exponent, so it
  reads as a floating point number again and never as an
  integer.  The reader multiplies by powers of ten with a
  rounding at each step; for no finite number does that go out
  of range.

  Key definitions include:
    * `Binary.reread`

  Main declarations:
    * `Json.exists_scale`
    * `Json.read_write`
-/

namespace Factbase

/- The number that the numeral of a number reads as. -/
def Binary.reread (x : Binary64) : Binary64 :=
  match Json.readNumber (Layout.double.write x) with
  | .ok (.float y, _) => y
  | _ => x

namespace Json

------------------------------------------------------------
-- Powers of Ten
------------------------------------------------------------

/- Division by a power of ten always gives a number. -/
theorem exists_scale_of_neg
    (x : Binary64)
    {exponent : Int}
    (hNegative : exponent < 0)
    (fuel : Nat) :
    ∃ y, scale x exponent fuel = some y := by
  induction fuel generalizing x exponent with
  | zero => exact ⟨x, rfl⟩
  | succ fuel ih =>
      have hDown := Int.not_le.mpr hNegative
      rcases Nat.lt_or_ge 308 exponent.natAbs with hFar | hNear
      · simp only [scale, if_neg (Nat.not_le.mpr hFar),
          if_neg hDown]
        split_ifs
        · exact ⟨x, rfl⟩
        · exact ih _ (by omega)
      · simp only [scale, if_pos hNear, if_neg hDown]
        exact ⟨_, rfl⟩

/- Multiplication by a power of ten, if the product is finite. -/
theorem exists_scale_of_isFinite
    {x : Binary64}
    {exponent : Nat}
    (hNear : exponent < 309)
    (hFinite : (x.mul (.ofNat (tenTo exponent))).isFinite = true) :
    ∃ y, scale x exponent 4 = some y := by
  refine ⟨x.mul (.ofNat (tenTo exponent)), ?_⟩
  rw [scale, if_pos (by omega), if_pos (Int.natCast_nonneg _)]
  simp only [Int.natAbs_natCast]
  exact if_pos hFinite

/- Of a product that is finite, smaller factors give one too. -/
theorem isFinite_mul_of_le
    {m n p q : Nat}
    (hLeft : m ≤ n)
    (hRight : p ≤ q)
    (hFinite :
      ((.ofNat n : Binary64).mul (.ofNat q)).isFinite = true) :
    ((.ofNat m : Binary64).mul (.ofNat p)).isFinite = true := by
  have hPrecision : 0 < Format.double.precision := by decide
  simp only [Binary.isFinite, decide_eq_true_eq] at hFinite ⊢
  exact Nat.lt_of_le_of_lt
    (Binary.mul_code_mono hPrecision
      (Binary.ofNat_code_mono hPrecision hLeft)
      (Binary.ofNat_code_mono hPrecision hRight)) hFinite

------------------------------------------------------------
-- Range
------------------------------------------------------------

/- The magnitude code of the greatest finite number. -/
def topCode : Nat :=
  Format.double.infinity - 1

/- The greatest whole number that rounds to less than that. -/
def capacity : Nat :=
  Format.double.upper (topCode - 1)
    / twoTo (Format.double.depth + 1)

theorem capacity_lt : capacity < tenTo 309 := by
  decide +kernel

/- All significands have room beside 288 zeros. -/
theorem isFinite_significandLimit :
    ((.ofNat significandLimit : Binary64).mul
      (.ofNat (tenTo 288))).isFinite = true := by
  decide +kernel

/-
  Below the greatest finite number there is room for what
  rounding adds to a significand, to a power of ten and to
  their product.
-/
theorem isFinite_capacity : ∀ more < 20,
    ((.ofNat (capacity / tenTo (289 + more)) : Binary64).mul
      (.ofNat (tenTo (289 + more)))).isFinite = true := by
  decide +kernel

/- The shortest decimal of the greatest finite number. -/
theorem shortest_topCode :
    Format.double.shortest .even topCode =
      ⟨17976931348623157, 292⟩ := by
  decide +kernel

/- Its leading digits have room beside the zeros for the rest. -/
theorem isFinite_topCode : ∀ left < 17,
    ((.ofNat (17976931348623157 / 10 ^ left) : Binary64).mul
      (.ofNat (tenTo (292 + left)))).isFinite = true := by
  decide +kernel

/- Below the greatest number the interval has an end in range. -/
theorem exists_scale_of_lt_top
    {code : Nat}
    (hPositive : 0 < code)
    (hBelow : code < topCode)
    {left kept exponent : Nat}
    (hKept : 0 < kept)
    (hFits : kept ≤ significandLimit)
    (hLeads : 10 ^ left * kept ≤
      (Format.double.shortest .even code).digits)
    (hExponent : (exponent : Int) =
      (Format.double.shortest .even code).exponent + left) :
    ∃ y, scale (.ofNat kept) exponent 4 = some y := by
  have hFinite : code < Format.double.infinity :=
    Nat.lt_of_lt_of_le hBelow (by decide)
  have hUpper := Format.leading_le_upper
    (Format.shortest_spec .even hPositive hFinite).1
    hLeads hExponent
  have hProduct : kept * tenTo exponent ≤ capacity :=
    (Nat.le_div_iff_mul_le (twoTo_pos _)).mpr
      (Nat.le_trans hUpper
        (Format.double.upper_mono (Nat.le_pred_of_lt hBelow)))
  have hNear : exponent < 309 := by
    apply tenTo_mono.reflect_lt
    exact Nat.lt_of_le_of_lt
      (Nat.le_trans (Nat.le_mul_of_pos_left _ hKept) hProduct)
      capacity_lt
  apply exists_scale_of_isFinite hNear
  rcases Nat.lt_or_ge exponent 289 with hSmall | hLarge
  · exact isFinite_mul_of_le hFits
      (tenTo_mono (Nat.le_of_lt_succ hSmall))
      isFinite_significandLimit
  · have hQuotient : kept ≤ capacity / tenTo exponent :=
      (Nat.le_div_iff_mul_le (tenTo_pos _)).mpr hProduct
    have hCapacity := isFinite_capacity (exponent - 289)
      (by omega)
    rw [Nat.add_sub_cancel' hLarge] at hCapacity
    exact isFinite_mul_of_le hQuotient (Nat.le_refl _) hCapacity

/- Of the greatest number the digits are known. -/
theorem exists_scale_top
    {left kept exponent : Nat}
    (hKept : 0 < kept)
    (hLeads : 10 ^ left * kept ≤ 17976931348623157)
    (hExponent : exponent = 292 + left) :
    ∃ y, scale (.ofNat kept) exponent 4 = some y := by
  have hLeft : left < 17 := by
    apply tenTo_mono.reflect_lt
    exact Nat.lt_of_le_of_lt
      (Nat.le_trans (Nat.le_mul_of_pos_right _ hKept) hLeads)
      (by decide)
  have hQuotient : kept ≤ 17976931348623157 / 10 ^ left := by
    rw [Nat.le_div_iff_mul_le (Nat.pow_pos (by decide)),
      Nat.mul_comm]
    exact hLeads
  rw [hExponent]
  exact exists_scale_of_isFinite (by omega)
    (isFinite_mul_of_le hQuotient (Nat.le_refl _)
      (isFinite_topCode left hLeft))

/-
  The leading digits of a finite number times their power of
  ten stay in range.
-/
theorem exists_scale
    {code : Nat}
    (hPositive : 0 < code)
    (hFinite : code < Format.double.infinity)
    {left kept : Nat}
    (hKept : 0 < kept)
    (hFits : kept ≤ significandLimit)
    (hLeads : 10 ^ left * kept ≤
      (Format.double.shortest .even code).digits) :
    ∃ y, scale (.ofNat kept)
      ((Format.double.shortest .even code).exponent + left) 4 =
        some y := by
  rcases Int.lt_or_le
    ((Format.double.shortest .even code).exponent + left) 0
    with hNegative | hNonneg
  · exact exists_scale_of_neg _ hNegative 4
  rcases Int.eq_ofNat_of_zero_le hNonneg with ⟨exponent, hExponent⟩
  rw [hExponent]
  rcases Nat.lt_or_ge code topCode with hBelow | hTop
  · exact exists_scale_of_lt_top hPositive hBelow hKept hFits
      hLeads hExponent.symm
  · have hCode : code = topCode :=
      Nat.le_antisymm (Nat.le_pred_of_lt hFinite) hTop
    rw [hCode, shortest_topCode] at hExponent hLeads
    apply exists_scale_top hKept hLeads
    simp only at hExponent
    omega

------------------------------------------------------------
-- Written Numbers
------------------------------------------------------------

/- A text reads as one float after its sign, whatever follows. -/
def ReadsFloat (minus : Bool) (text : List Char) : Prop :=
  ∃ y, ∀ rest, Ends rest →
    readUnsigned minus (text ++ rest) = .ok (.float y, rest)

/- A text reads as a float if its digits can be scaled. -/
theorem readsFloat_of_assemble
    {minus : Bool}
    {text : List Char}
    {kept : Nat}
    {exponent : Int}
    (hScale : ∃ y, scale (.ofNat kept) exponent 4 = some y)
    (hRead : ∀ rest, Ends rest →
      readUnsigned minus (text ++ rest) =
        assemble minus kept exponent rest) :
    ReadsFloat minus text := by
  rcases hScale with ⟨y, hScale⟩
  refine ⟨if minus then y.neg else y, ?_⟩
  intro rest hEnds
  rw [hRead rest hEnds, assemble, hScale]

/- So does a number with a point in it. -/
theorem Pointed.readsFloat
    {whole part : List Char}
    (hPointed : Pointed whole part)
    (minus : Bool) :
    ReadsFloat minus (whole ++ '.' :: part) := by
  rcases hPointed.exists_read minus
    with ⟨kept, count, hCount, hRead⟩
  exact readsFloat_of_assemble
    (exists_scale_of_neg _ (by omega) 4) hRead

/- The numeral of a number other than zero does not start with it. -/
theorem exists_write_pos {n : Nat} (hPositive : 0 < n) :
    ∃ d tail, Digits.write n = d :: tail ∧
      (∀ c ∈ d :: tail, c.isDigit = true) ∧
      d ≠ '0' ∧ 0 < Digits.digit d := by
  rcases Digits.exists_write_eq_cons n
    with ⟨d, tail, hWrite, hDigits⟩
  have hLead : d ≠ '0' := by
    rintro rfl
    have hValue := Digits.value_write n
    rw [hWrite, Digits.tail_of_write hWrite,
      Digits.value_singleton] at hValue
    exact absurd hValue hPositive.ne
  refine ⟨d, tail, hWrite, hDigits, hLead, ?_⟩
  apply Nat.pos_of_ne_zero
  intro hZero
  exact hLead ((Digits.digit_inj (hDigits d List.mem_cons_self)
    (by decide)).mp hZero)

theorem length_write_le
    {n width : Nat}
    (hPositive : 0 < width)
    (hBound : n < tenTo width) :
    (Digits.write n).length ≤ width :=
  (Nat.length_toDigits_le_iff (by decide) hPositive).mpr hBound

/- The text of every positive finite float reads as one. -/
theorem readsFloat_magnitude
    {x : Binary64}
    (hPositive : 0 < x.code)
    (hFinite : x.code < Format.double.infinity)
    (minus : Bool) :
    ReadsFloat minus (Layout.double.magnitude x) := by
  rcases Format.shortest_spec .even hPositive hFinite
    with ⟨hRounds, hLow, hHigh⟩
  have hSize :=
    Format.digits_shortest_lt .even hPositive hFinite
  have hScale := @exists_scale x.code hPositive hFinite
  have hShape : Layout.double.magnitude x =
      let shortest := Format.double.shortest .even x.code
      let ds := Digits.write shortest.digits
      let exponent := shortest.exponent + ds.length - 1
      if Layout.double.inRange exponent then
        Layout.double.place ds exponent
      else Layout.scientific ds exponent := rfl
  generalize Format.double.shortest .even x.code = shortest at *
  rcases exists_write_pos
    (Format.digits_pos_of_rounds hPositive hRounds)
    with ⟨d, tail, hWrite, hDigits, hLead, hDigit⟩
  have hLength := length_write_le (by decide) hSize
  have hLimit : exponentLimit = 2147483647 := rfl
  rw [hShape]
  simp only [hWrite, List.length_cons] at hLength ⊢
  split_ifs with hRange
  · -- some digits stand behind the point
    have hExponent : shortest.exponent
        + ((tail.length + 1 : Nat) : Int) - 1 ≤ 15 := by
      simp only [Layout.inRange, Layout.double,
        Bool.and_eq_true, decide_eq_true_eq] at hRange
      exact hRange.2
    rcases exists_pointed hDigits hLead hExponent
      with ⟨whole, part, hPointed, hPlace, _⟩
    rw [hPlace]
    exact hPointed.readsFloat minus
  · rcases exists_read_scientific minus hDigits
      (show (shortest.exponent
        + ((tail.length + 1 : Nat) : Int) - 1).natAbs ≤
          exponentLimit by omega)
      with ⟨kept, count, hGrows, hFits, hCount, hLeads, hRead⟩
    apply readsFloat_of_assemble _ hRead
    rw [← hWrite, Digits.value_write] at hLeads
    have hProduct := hScale (Nat.lt_of_lt_of_le hDigit hGrows)
      hFits hLeads
    have hExponent : shortest.exponent
        + ((tail.length - count : Nat) : Int) =
          shortest.exponent + ((tail.length + 1 : Nat) : Int)
            - 1 - count := by
      omega
    rwa [hExponent] at hProduct

theorem readsFloat_zero (minus : Bool) :
    ReadsFloat minus (Layout.double.place ['0'] 0) := by
  have hPointed : Pointed ['0'] ['0'] :=
    ⟨by simp, by simp, by simp, by simp, by simp, by simp⟩
  exact hPointed.readsFloat minus

/- A finite number is written as a sign and what reads as a float. -/
theorem exists_write
    {x : Binary64}
    (hFinite : x.isFinite = true) :
    ∃ text, ReadsFloat x.negative text ∧
      Layout.double.write x =
        if x.negative then '-' :: text else text := by
  have hNumber : x.isNaN = false := by
    simp only [Binary.isFinite, Binary.isNaN,
      decide_eq_true_eq, decide_eq_false_iff_not] at *
    omega
  rw [Layout.write, hNumber]
  simp only [hFinite, Bool.not_true, Bool.false_eq_true,
    if_false]
  rcases Nat.eq_zero_or_pos x.code with hZero | hPositive
  · refine ⟨_, readsFloat_zero _, ?_⟩
    have hIsZero : x.isZero = true := by
      simp [Binary.isZero, hZero]
    simp only [hIsZero, if_true]
    split_ifs <;> rfl
  · refine ⟨_, readsFloat_magnitude hPositive
      (by simpa [Binary.isFinite] using hFinite) _, ?_⟩
    have hIsZero : x.isZero = false := by
      simp [Binary.isZero, hPositive.ne']
    simp only [hIsZero, Bool.false_eq_true, if_false]
    split_ifs <;> rfl

/- What reads as a float starts with a digit. -/
theorem ReadsFloat.exists_digit
    {minus : Bool}
    {text : List Char}
    (hReads : ReadsFloat minus text) :
    ∃ c cs, text = c :: cs ∧ c.isDigit = true := by
  rcases hReads with ⟨y, hRead⟩
  have hAlone := hRead [] ends_nil
  rw [List.append_nil] at hAlone
  cases text with
  | nil => cases hAlone
  | cons c cs =>
      refine ⟨c, cs, rfl, ?_⟩
      cases hDigit : c.isDigit with
      | true => rfl
      | false =>
          simp [readUnsigned, hDigit] at hAlone

section Signs

variable {c : Char}
variable {cs : List Char}

theorem readNumber_signed
    (negative : Bool)
    (hDigit : c.isDigit = true) :
    readNumber (if negative then '-' :: c :: cs else c :: cs) =
      readUnsigned negative (c :: cs) := by
  cases negative with
  | true => rfl
  | false =>
      rw [if_neg Bool.false_ne_true, readNumber]
      rintro r hMinus
      cases hMinus
      exact absurd hDigit (by decide)

theorem readFront_signed
    (negative : Bool)
    (hDigit : c.isDigit = true)
    (rest : List Char) :
    readFront
        ((if negative then '-' :: c :: cs else c :: cs) ++ rest) =
      (readUnsigned negative (c :: cs ++ rest)).map
        fun (n, r) => (.number n, r) := by
  cases negative with
  | true => exact readFront_minus
  | false => exact readFront_digit hDigit

end Signs

/-
  The numeral of a finite number reads as a float, whatever
  follows it.
-/
theorem read_write
    {x : Binary64}
    (hFinite : x.isFinite = true) :
    readNumber (Layout.double.write x) =
        .ok (.float x.reread, []) ∧
      IsNumeral (Layout.double.write x) ∧
      numberOf (Layout.double.write x) = .float x.reread := by
  rcases exists_write hFinite with ⟨text, hReads, hWrite⟩
  rcases hReads.exists_digit with ⟨c, cs, rfl, hDigit⟩
  rcases hReads with ⟨y, hRead⟩
  have hNumber : readNumber (Layout.double.write x) =
      .ok (.float y, []) := by
    have hAlone := hRead [] ends_nil
    rw [List.append_nil] at hAlone
    rw [hWrite, readNumber_signed x.negative hDigit, hAlone]
  have hReread : x.reread = y := by
    rw [Binary.reread, hNumber]
  rw [hReread]
  refine ⟨hNumber, isNumeral_of_readFront ?_ ?_⟩
  · rw [hWrite]
    cases x.negative with
    | true => exact ⟨'-', c :: cs, rfl, .inl rfl⟩
    | false => exact ⟨c, cs, rfl, .inr hDigit⟩
  · intro rest hEnds
    rw [hWrite, readFront_signed x.negative hDigit,
      hRead rest hEnds]
    rfl

end Json

end Factbase
