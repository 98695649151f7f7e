import Factbase.Proofs.Binary.Exactness
import Factbase.Proofs.Data.Prefixes
import Factbase.Proofs.Json.Floats

/-
  Floating point numbers are told apart by their numerals.

  A numeral stands for a decimal: its digits, scaled by its
  exponent and by the digits behind its point.  That decimal has
  the value of the shortest one, which lies in the interval of
  the number written and of no other number.

  Key definitions include:
    * `Decimal.Equivalent`
    * `Decimal.ofNumeral`

  Main declarations:
    * `Decimal.equivalent_place`
    * `Layout.equivalent_magnitude`
    * `Layout.write_inj_of_isFinite`
-/

namespace Factbase

------------------------------------------------------------
-- Decimals of Numerals
------------------------------------------------------------

namespace Decimal

/- Decimals that stand for one number. -/
def Equivalent (d e : Decimal) : Prop :=
  d.num * e.den = e.num * d.den

/- The exponent at the end of a numeral, zero if there is none. -/
def exponentPart : List Char → Int
  | 'e' :: '-' :: ds => -(Digits.value ds)
  | 'e' :: '+' :: ds => Digits.value ds
  | _ => 0

/- The decimal that a numeral without a sign stands for. -/
def ofNumeral (cs : List Char) : Decimal :=
  let whole := cs.takeWhile Char.isDigit
  match cs.dropWhile Char.isDigit with
  | '.' :: r =>
      let part := r.takeWhile Char.isDigit
      ⟨Digits.value (whole ++ part),
        exponentPart (r.dropWhile Char.isDigit) - part.length⟩
  | r => ⟨Digits.value whole, exponentPart r⟩

section Numerals

variable {whole part tail : List Char}

theorem ofNumeral_pointed
    (hWhole : ∀ c ∈ whole, c.isDigit = true)
    (hPart : ∀ c ∈ part, c.isDigit = true)
    (hStop : Json.NoDigit tail) :
    ofNumeral (whole ++ '.' :: (part ++ tail)) =
      ⟨Digits.value (whole ++ part),
        exponentPart tail - part.length⟩ := by
  have hPoint : Json.NoDigit ('.' :: (part ++ tail)) :=
    Json.noDigit_cons (by decide)
  simp only [ofNumeral,
    List.takeWhile_append_of_pos hWhole,
    List.dropWhile_append_of_pos hWhole,
    Json.takeWhile_of_noDigit hPoint,
    Json.dropWhile_of_noDigit hPoint,
    List.takeWhile_append_of_pos hPart,
    List.dropWhile_append_of_pos hPart,
    Json.takeWhile_of_noDigit hStop,
    Json.dropWhile_of_noDigit hStop, List.append_nil]

theorem ofNumeral_scaled
    (hWhole : ∀ c ∈ whole, c.isDigit = true) :
    ofNumeral (whole ++ 'e' :: tail) =
      ⟨Digits.value whole, exponentPart ('e' :: tail)⟩ := by
  have hMark : Json.NoDigit ('e' :: tail) :=
    Json.noDigit_cons (by decide)
  simp only [ofNumeral,
    List.takeWhile_append_of_pos hWhole,
    List.dropWhile_append_of_pos hWhole,
    Json.takeWhile_of_noDigit hMark,
    Json.dropWhile_of_noDigit hMark, List.append_nil]
  rfl

end Numerals

/- Zeros behind the digits lower the exponent. -/
theorem equivalent_zeros
    (digits zeros : Nat)
    (exponent : Int) :
    Equivalent ⟨digits, exponent + zeros⟩
      ⟨10 ^ zeros * digits, exponent⟩ := by
  have hPowers :
      10 ^ (exponent + zeros).toNat * 10 ^ (-exponent).toNat =
        10 ^ zeros * 10 ^ exponent.toNat
          * 10 ^ (-(exponent + zeros)).toNat := by
    rw [← Nat.pow_add, ← Nat.pow_add, ← Nat.pow_add]
    congr 1
    omega
  simp only [Equivalent, num, den, tenTo_eq]
  rw [Nat.mul_assoc, hPowers]
  ring

section Layouts

variable {ds : List Char}

section Positional

variable (hDigits : ∀ c ∈ ds, c.isDigit = true)
include hDigits

/- All digits stand behind the point, after some zeros. -/
theorem equivalent_place_behind
    {exponent : Int}
    (hNegative : exponent < 0) :
    Equivalent ⟨Digits.value ds, exponent + 1 - ds.length⟩
      (ofNumeral (Layout.double.place ds exponent)) := by
  let zeros := (-exponent - 1).toNat
  have hText : Layout.double.place ds exponent =
      ['0'] ++ '.' :: (List.replicate zeros '0' ++ ds ++ []) := by
    rw [Layout.place, if_pos hNegative, List.append_nil]
    rfl
  have hNumeral :
      ofNumeral (Layout.double.place ds exponent) =
        ⟨Digits.value (List.replicate (zeros + 1) '0' ++ ds),
          exponentPart []
            - (List.replicate zeros '0' ++ ds).length⟩ := by
    rw [hText, ofNumeral_pointed (by simp)
      (List.forall_mem_append.mpr
        ⟨Digits.isDigit_of_mem_zeros _, hDigits⟩)
      Json.ends_nil.noDigit]
    rfl
  have hExponent : exponentPart [] -
      (List.replicate zeros '0' ++ ds).length =
        exponent + 1 - ds.length := by
    rw [List.length_append, List.length_replicate]
    simp only [exponentPart, zeros]
    omega
  rw [hNumeral, Digits.value_zeros_append, hExponent]
  exact rfl

/- The point stands between two digits. -/
theorem equivalent_place_between
    {exponent : Int}
    (hPositive : 0 ≤ exponent)
    (hShort : exponent.toNat + 1 < ds.length) :
    Equivalent ⟨Digits.value ds, exponent + 1 - ds.length⟩
      (ofNumeral (Layout.double.place ds exponent)) := by
  have hText : Layout.double.place ds exponent =
      ds.take (exponent.toNat + 1) ++ '.' ::
        (ds.drop (exponent.toNat + 1) ++ []) := by
    have hZeros : exponent.toNat + 1 - ds.length = 0 := by
      omega
    simp only [Layout.place, if_neg (Int.not_lt.mpr hPositive),
      hZeros, List.replicate_zero, List.append_nil]
    split
    case h_1 hNone =>
      rw [List.drop_eq_nil_iff] at hNone
      omega
    case h_2 part _ => rfl
  have hExponent : exponentPart []
      - (ds.drop (exponent.toNat + 1)).length =
        exponent + 1 - ds.length := by
    rw [List.length_drop]
    simp only [exponentPart]
    omega
  rw [hText, ofNumeral_pointed
    (fun c hMember => hDigits c (List.mem_of_mem_take hMember))
    (fun c hMember => hDigits c (List.mem_of_mem_drop hMember))
    Json.ends_nil.noDigit, List.take_append_drop, hExponent]
  exact rfl

/- Zeros stand for what is left before the point. -/
theorem equivalent_place_before
    {exponent : Int}
    (hPositive : 0 ≤ exponent)
    (hLong : ds.length ≤ exponent.toNat + 1) :
    Equivalent ⟨Digits.value ds, exponent + 1 - ds.length⟩
      (ofNumeral (Layout.double.place ds exponent)) := by
  let zeros := exponent.toNat + 1 - ds.length
  have hText : Layout.double.place ds exponent =
      ds ++ List.replicate zeros '0' ++ '.' :: (['0'] ++ []) := by
    simp only [Layout.place, if_neg (Int.not_lt.mpr hPositive),
      List.take_of_length_le hLong,
      List.drop_eq_nil_of_le hLong]
    rfl
  have hValue : Digits.value
      (ds ++ List.replicate zeros '0' ++ ['0']) =
        10 ^ (zeros + 1) * Digits.value ds := by
    rw [← Digits.value_append_zeros, List.replicate_succ',
      List.append_assoc]
  have hExponent : exponent + 1 - ds.length =
      -1 + ((zeros + 1 : Nat) : Int) := by
    simp only [zeros]
    omega
  rw [hText, ofNumeral_pointed
    (List.forall_mem_append.mpr
      ⟨hDigits, Digits.isDigit_of_mem_zeros _⟩)
    (by simp) Json.ends_nil.noDigit, hValue, hExponent]
  exact equivalent_zeros _ _ _

/- Digits in positional form stand for their number. -/
theorem equivalent_place (exponent : Int) :
    Equivalent ⟨Digits.value ds, exponent + 1 - ds.length⟩
      (ofNumeral (Layout.double.place ds exponent)) := by
  rcases Int.lt_or_le exponent 0 with hNegative | hPositive
  · exact equivalent_place_behind hDigits hNegative
  · rcases Nat.lt_or_ge (exponent.toNat + 1) ds.length
      with hShort | hLong
    · exact equivalent_place_between hDigits hPositive hShort
    · exact equivalent_place_before hDigits hPositive hLong

end Positional

/- Digits in scientific form stand for their number. -/
theorem ofNumeral_scientific
    (hDigits : ∀ c ∈ ds, c.isDigit = true)
    (hSome : ds ≠ [])
    (exponent : Int) :
    ofNumeral (Layout.scientific ds exponent) =
      ⟨Digits.value ds, exponent + 1 - ds.length⟩ := by
  let sign := if exponent < 0 then '-' else '+'
  let tail := 'e' :: sign :: Digits.write exponent.natAbs
  have hExponent : exponentPart tail = exponent := by
    simp only [tail, sign]
    split_ifs with hNegative
    · rw [exponentPart, Digits.value_write]
      omega
    · rw [exponentPart, Digits.value_write]
      omega
  cases ds with
  | nil => exact absurd rfl hSome
  | cons d ds =>
      rw [List.forall_mem_cons] at hDigits
      have hFirst : ∀ c ∈ [d], c.isDigit = true := by
        simpa using hDigits.1
      cases ds with
      | nil =>
          have hText : Layout.scientific [d] exponent =
              [d] ++ tail := rfl
          rw [hText, ofNumeral_scaled hFirst, hExponent]
          simp
      | cons e ds =>
          have hText : Layout.scientific (d :: e :: ds) exponent =
              [d] ++ '.' :: ((e :: ds) ++ tail) := rfl
          have hStop : Json.NoDigit tail :=
            Json.noDigit_cons (by decide)
          rw [hText, ofNumeral_pointed hFirst hDigits.2 hStop,
            hExponent, List.singleton_append]
          congr 1
          simp only [List.length_cons]
          omega

end Layouts

end Decimal

------------------------------------------------------------
-- Numerals of Numbers
------------------------------------------------------------

namespace Layout

variable {x y : Binary64}

/- The numeral of a magnitude stands for its shortest decimal. -/
theorem equivalent_magnitude (x : Binary64) :
    (Format.double.shortest .even x.code).Equivalent
      (.ofNumeral (double.magnitude x)) := by
  have hShape : double.magnitude x =
      let shortest := Format.double.shortest .even x.code
      let ds := Digits.write shortest.digits
      let exponent := shortest.exponent + ds.length - 1
      if double.inRange exponent then double.place ds exponent
      else scientific ds exponent := rfl
  rw [hShape]
  generalize Format.double.shortest .even x.code = shortest
  have hDigits : ∀ c ∈ Digits.write shortest.digits,
      c.isDigit = true :=
    fun c => Digits.isDigit_of_mem_write
  have hSome := Digits.write_ne_nil shortest.digits
  have hValue := Digits.value_write shortest.digits
  simp only
  generalize Digits.write shortest.digits = ds at *
  have hDecimal : shortest =
      ⟨Digits.value ds,
        shortest.exponent + ds.length - 1 + 1 - ds.length⟩ := by
    rw [hValue, Int.sub_add_cancel, Int.add_sub_cancel]
  split_ifs
  · have hPlace := Decimal.equivalent_place hDigits
      (shortest.exponent + ds.length - 1)
    rwa [← hDecimal] at hPlace
  · rw [Decimal.ofNumeral_scientific hDigits hSome, ← hDecimal]
    exact rfl

/- A number lies at what its numeral stands for. -/
theorem rounds_ofNumeral
    (hPositive : 0 < x.code)
    (hFinite : x.code < Format.double.infinity) :
    Format.double.rounds x.code
      (.ofNumeral (double.magnitude x)) = true := by
  rw [← Format.rounds_congr (equivalent_magnitude x)]
  exact (Format.shortest_spec .even hPositive hFinite).1

/- The numeral of zero stands for zero, and no other one does. -/
theorem digits_ofNumeral_eq_zero_iff
    (hFinite : x.code < Format.double.infinity) :
    (Decimal.ofNumeral (double.unsigned x)).digits = 0 ↔
      x.code = 0 := by
  rcases Nat.eq_zero_or_pos x.code with hZero | hPositive
  · have hIsZero : x.isZero = true := by
      simpa [Binary.isZero] using hZero
    have hText : double.unsigned x = double.place ['0'] 0 := by
      rw [unsigned, if_pos hIsZero]
    rw [hText]
    exact iff_of_true rfl hZero
  · have hIsZero : ¬ x.isZero = true := by
      simpa [Binary.isZero] using hPositive.ne'
    rw [unsigned, if_neg hIsZero]
    exact iff_of_false
      (Format.digits_pos_of_rounds hPositive
        (rounds_ofNumeral hPositive hFinite)).ne'
      hPositive.ne'

/- Different finite magnitudes have different numerals. -/
theorem code_eq_of_unsigned_eq
    (hFinite : x.code < Format.double.infinity)
    (hOther : y.code < Format.double.infinity)
    (hSame : double.unsigned x = double.unsigned y) :
    x.code = y.code := by
  have hZero := digits_ofNumeral_eq_zero_iff hFinite
  rw [hSame, digits_ofNumeral_eq_zero_iff hOther] at hZero
  rcases Nat.eq_zero_or_pos x.code with hNone | hPositive
  · rw [hNone, hZero.mpr hNone]
  · have hAlso : 0 < y.code := by
      apply Nat.pos_of_ne_zero
      intro hNone
      exact hPositive.ne' (hZero.mp hNone)
    have hMagnitude : ∀ {z : Binary64}, 0 < z.code →
        double.unsigned z = double.magnitude z := by
      intro z hNonzero
      rw [unsigned, if_neg (by simpa [Binary.isZero] using
        hNonzero.ne')]
    rw [hMagnitude hPositive, hMagnitude hAlso] at hSame
    have hRounds := rounds_ofNumeral hPositive hFinite
    rw [hSame] at hRounds
    exact Format.rounds_unique rfl hRounds
      (rounds_ofNumeral hAlso hOther)

/- Different finite numbers have different numerals. -/
theorem write_inj_of_isFinite
    (hFinite : x.isFinite = true)
    (hOther : y.isFinite = true)
    (hSame : double.write x = double.write y) : x = y := by
  have hSplit : x.negative = y.negative ∧
      double.unsigned x = double.unsigned y := by
    rcases double.exists_unsigned_digit x
      with ⟨c, cs, hText, hDigit⟩
    rcases double.exists_unsigned_digit y
      with ⟨d, ds, hText', hDigit'⟩
    rw [double.write_of_isFinite hFinite,
      double.write_of_isFinite hOther, hText, hText'] at hSame
    rw [hText, hText']
    cases hSign : x.negative <;> cases hSign' : y.negative <;>
      simp [hSign, hSign'] at hSame
    · exact ⟨rfl, by rw [hSame.1, hSame.2]⟩
    · rw [hSame.1] at hDigit
      exact absurd hDigit (by decide)
    · rw [← hSame.1] at hDigit'
      exact absurd hDigit' (by decide)
    · exact ⟨rfl, by rw [hSame.1, hSame.2]⟩
  have hCode := code_eq_of_unsigned_eq
    (by simpa [Binary.isFinite] using hFinite)
    (by simpa [Binary.isFinite] using hOther) hSplit.2
  cases x
  cases y
  rw [Binary.mk.injEq]
  exact ⟨hSplit.1, hCode⟩

end Layout

end Factbase
