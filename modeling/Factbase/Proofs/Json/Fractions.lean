import Factbase.Proofs.Json.Numbers

/-
  Numerals with a fraction or an exponent and what they read as.

  The reader keeps as many digits as fit 64 bits and passes over
  those that are left.  A written number is read as the kept
  digits times a power of ten, whatever follows it.

  Key definitions include:
    * `Json.Gathers`
    * `Json.Pointed`

  Main declarations:
    * `Json.exists_gathers`
    * `Json.gathers_all`
    * `Json.Pointed.read`
    * `Json.read_scientific`
-/

namespace Factbase.Json

variable {ds rest : List Char}
variable {minus : Bool}

------------------------------------------------------------
-- Digits That Are Kept
------------------------------------------------------------

/-
  From a start, some digits of a list are kept.  They are the
  leading ones, so with a zero for each digit left they are not
  more than all digits.
-/
structure Gathers
    (start : Nat)
    (ds : List Char)
    (kept count : Nat) : Prop where
  read : ∀ taken rest, NoDigit rest →
    ∃ left, (∀ c ∈ left, c.isDigit = true) ∧
      gather start taken (ds ++ rest) =
        (kept, taken + count, left ++ rest)
  grows : start ≤ kept
  fits : kept ≤ significandLimit
  counted : count ≤ ds.length
  leads : 10 ^ (ds.length - count) * kept ≤
    10 ^ ds.length * start + Digits.value ds
  moves : ds ≠ [] → start * 10 + 9 ≤ significandLimit → 0 < count

theorem exists_gathers
    {start : Nat}
    (hStart : start ≤ significandLimit)
    (hDigits : ∀ c ∈ ds, c.isDigit = true) :
    ∃ kept count, Gathers start ds kept count := by
  induction ds generalizing start with
  | nil =>
      refine ⟨start, 0, ?_, ?_, hStart, ?_, ?_, ?_⟩
      · intro taken rest hStop
        refine ⟨[], by simp, ?_⟩
        exact gather_of_noDigit start taken hStop
      all_goals simp
  | cons c ds ih =>
      rw [List.forall_mem_cons] at hDigits
      have hDigit := Digits.digit_lt hDigits.1
      rcases Nat.lt_or_ge significandLimit
        (start * 10 + Digits.digit c) with hOver | hNext
      · refine ⟨start, 0, ?_, ?_, hStart, ?_, ?_, ?_⟩
        · intro taken rest hStop
          refine ⟨c :: ds, List.forall_mem_cons.mpr hDigits, ?_⟩
          rw [List.cons_append, gather, if_pos hDigits.1]
          exact if_pos hOver
        · exact Nat.le_refl _
        · exact Nat.zero_le _
        · exact Nat.le_add_right _ _
        · omega
      · rcases ih hNext hDigits.2 with ⟨kept, count, hGathers⟩
        refine ⟨kept, count + 1, ?_, ?_, hGathers.fits, ?_, ?_, ?_⟩
        · intro taken rest hStop
          rcases hGathers.read (taken + 1) rest hStop
            with ⟨left, hLeft, hRead⟩
          refine ⟨left, hLeft, ?_⟩
          rw [List.cons_append, gather, if_pos hDigits.1]
          simp only [if_neg (Nat.not_lt.mpr hNext), hRead,
            Prod.mk.injEq, true_and, and_true]
          omega
        · have hGrows := hGathers.grows
          omega
        · exact Nat.succ_le_succ hGathers.counted
        · have hLeads := hGathers.leads
          rw [Digits.value_cons_after, List.length_cons,
            Nat.add_sub_add_right]
          exact hLeads
        · omega

/- Digits that fit are kept all. -/
theorem gathers_all
    {start : Nat}
    (hDigits : ∀ c ∈ ds, c.isDigit = true)
    (hFits : 10 ^ ds.length * start + Digits.value ds ≤
      significandLimit) :
    Gathers start ds (10 ^ ds.length * start + Digits.value ds)
      ds.length := by
  refine ⟨?_, ?_, hFits, Nat.le_refl _, ?_, ?_⟩
  · intro taken rest hStop
    exact ⟨[], by simp,
      gather_digits start taken hDigits hStop hFits⟩
  · exact Nat.le_add_right_of_le (Nat.le_mul_of_pos_left _
      (Nat.pow_pos (by decide)))
  · simp
  · intro hSome _
    exact List.length_pos_of_ne_nil hSome

------------------------------------------------------------
-- Fractions
------------------------------------------------------------

theorem dropWhile_append_of_noDigit
    (hDigits : ∀ c ∈ ds, c.isDigit = true)
    (hStop : NoDigit rest) :
    (ds ++ rest).dropWhile Char.isDigit = rest := by
  rw [List.dropWhile_append_of_pos hDigits,
    dropWhile_of_noDigit hStop]

/- The digits after a point. -/
theorem readFraction_digits
    {start kept count : Nat}
    (exponent : Int)
    (hDigits : ∀ c ∈ ds, c.isDigit = true)
    (hNonempty : ds ≠ [])
    (hGathers : Gathers start ds kept count)
    (hStop : NoDigit rest) :
    readFraction minus start exponent (ds ++ rest) =
      finish minus kept (exponent - count) rest := by
  rcases hGathers.read 0 rest hStop with ⟨left, hLeft, hRead⟩
  rcases List.exists_cons_of_ne_nil hNonempty with ⟨d, tail, rfl⟩
  have hDigit := hDigits d List.mem_cons_self
  rw [List.cons_append] at hRead ⊢
  rw [readFraction]
  simp only [hDigit, Bool.not_true, Bool.false_eq_true, if_false,
    hRead, dropWhile_append_of_noDigit hLeft hStop, Nat.zero_add]

theorem finish_of_ends
    (significand : Nat)
    (exponent : Int)
    (hEnds : Ends rest) :
    finish minus significand exponent rest =
      assemble minus significand exponent rest := by
  cases rest with
  | nil => rfl
  | cons c rest =>
      rcases hEnds c rfl with ⟨_, _, hLower, hUpper⟩
      unfold finish
      split <;> simp_all

------------------------------------------------------------
-- Exponents
------------------------------------------------------------

/- The digits of an exponent, if the reader has room for it. -/
theorem exponentDigits_digits
    (n : Nat)
    (hDigits : ∀ c ∈ ds, c.isDigit = true)
    (hStop : NoDigit rest)
    (hFits : 10 ^ ds.length * n + Digits.value ds ≤
      exponentLimit) :
    exponentDigits n (ds ++ rest) =
      (some (10 ^ ds.length * n + Digits.value ds), rest) := by
  induction ds generalizing n with
  | nil =>
      cases rest with
      | nil => simp [exponentDigits, Digits.value]
      | cons c rest =>
          simp [exponentDigits, hStop c rfl, Digits.value]
  | cons c ds ih =>
      rw [List.forall_mem_cons] at hDigits
      rw [Digits.value_cons_after] at hFits ⊢
      have hNext : n * 10 + Digits.digit c ≤ exponentLimit := by
        have hScale := Nat.le_mul_of_pos_left
          (n * 10 + Digits.digit c)
          (Nat.pow_pos (n := ds.length) (by decide : 0 < 10))
        omega
      rw [List.cons_append, exponentDigits, if_pos hDigits.1]
      simp only [if_neg (Nat.not_lt.mpr hNext)]
      exact ih _ hDigits.2 hFits

/- A written exponent adds to the one that was read so far. -/
theorem readExponent_signed
    (significand : Nat)
    (exponent : Int)
    {written : Int}
    (hFits : written.natAbs ≤ exponentLimit)
    (hStop : NoDigit rest) :
    readExponent minus significand exponent
        ((if written < 0 then '-' else '+')
          :: (Digits.write written.natAbs ++ rest)) =
      assemble minus significand (exponent + written) rest := by
  rcases Digits.exists_write_eq_cons written.natAbs
    with ⟨d, tail, hWrite, hDigits⟩
  rw [List.forall_mem_cons] at hDigits
  have hValue : 10 ^ tail.length * Digits.digit d
      + Digits.value tail = written.natAbs := by
    rw [← Digits.value_cons, ← hWrite, Digits.value_write]
  have hRead := exponentDigits_digits (Digits.digit d)
    hDigits.2 hStop (by rwa [hValue])
  rw [hValue] at hRead
  rw [hWrite, List.cons_append]
  split_ifs with hNegative
  · simp only [readExponent, exponentSign, hDigits.1,
      Bool.not_true, Bool.false_eq_true, if_false, if_true,
      hRead]
    congr 1
    omega
  · simp only [readExponent, exponentSign, hDigits.1,
      Bool.not_true, Bool.false_eq_true, if_false, hRead]
    congr 1
    omega

------------------------------------------------------------
-- Positional Forms
------------------------------------------------------------

theorem noDigit_cons
    {c : Char}
    (hMark : c.isDigit = false) : NoDigit (c :: rest) := by
  intro d hHead
  cases hHead
  exact hMark

/- Digits around a point, as in positional form. -/
structure Pointed (whole part : List Char) : Prop where
  wholeDigits : ∀ c ∈ whole, c.isDigit = true
  wholeNonempty : whole ≠ []
  lead : ∀ tail, whole = '0' :: tail → tail = []
  short : whole.length ≤ 16
  partDigits : ∀ c ∈ part, c.isDigit = true
  partNonempty : part ≠ []

theorem Pointed.value_whole_lt
    {whole part : List Char}
    (hPointed : Pointed whole part) :
    Digits.value whole < 10 ^ 16 :=
  Nat.lt_of_lt_of_le (Digits.value_lt hPointed.wholeDigits)
    (Nat.pow_le_pow_right (by decide) hPointed.short)

/- The digits kept behind a point lower the exponent. -/
theorem Pointed.read
    {whole part : List Char}
    (hPointed : Pointed whole part)
    {kept count : Nat}
    (hGathers : Gathers (Digits.value whole) part kept count)
    (minus : Bool)
    (hEnds : Ends rest) :
    readUnsigned minus (whole ++ '.' :: part ++ rest) =
      assemble minus kept (-(count : Int)) rest := by
  have hLimit : significandLimit = 18446744073709551615 := rfl
  have hValue := hPointed.value_whole_lt
  rw [List.append_assoc, List.cons_append,
    readUnsigned_digits minus hPointed.wholeDigits
      hPointed.wholeNonempty hPointed.lead
      (noDigit_cons (by decide)) (by omega), afterWhole,
    readFraction_digits 0 hPointed.partDigits
      hPointed.partNonempty hGathers hEnds.noDigit,
    finish_of_ends _ _ hEnds, Int.zero_sub]

/- A point leaves some digits behind it, so the exponent falls. -/
theorem Pointed.exists_read
    {whole part : List Char}
    (hPointed : Pointed whole part)
    (minus : Bool) :
    ∃ kept, ∃ count : Nat, 0 < count ∧ ∀ rest, Ends rest →
      readUnsigned minus (whole ++ '.' :: part ++ rest) =
        assemble minus kept (-(count : Int)) rest := by
  have hLimit : significandLimit = 18446744073709551615 := rfl
  have hValue := hPointed.value_whole_lt
  rcases exists_gathers
    (show Digits.value whole ≤ significandLimit by omega)
    hPointed.partDigits with ⟨kept, count, hGathers⟩
  exact ⟨kept, count,
    hGathers.moves hPointed.partNonempty (by omega),
    fun rest hEnds => hPointed.read hGathers minus hEnds⟩

/-
  A number in positional form has its digits around the point,
  or before it with a zero behind.
-/
theorem exists_pointed
    {d : Char}
    {tail : List Char}
    {exponent : Int}
    (hDigits : ∀ c ∈ d :: tail, c.isDigit = true)
    (hLead : d ≠ '0')
    (hExponent : exponent ≤ 15) :
    ∃ whole part, Pointed whole part ∧
      Layout.double.place (d :: tail) exponent =
        whole ++ '.' :: part ∧
      (part.length = 1 ∨
        Digits.value (whole ++ part) =
          Digits.value (d :: tail)) := by
  rcases Int.lt_or_le exponent 0 with hNegative | hPositive
  · refine ⟨['0'], List.replicate (-exponent - 1).toNat '0'
      ++ d :: tail, ⟨by simp, by simp, by simp, by simp,
        List.forall_mem_append.mpr
          ⟨Digits.isDigit_of_mem_zeros _, hDigits⟩, by simp⟩,
      ?_, .inr ?_⟩
    · rw [Layout.place, if_pos hNegative, List.append_assoc]
      rfl
    · rw [← List.append_assoc, List.singleton_append,
        ← List.replicate_succ, Digits.value_zeros_append]
  · have hPointed : ∀ part, (∀ c ∈ part, c.isDigit = true) →
        part ≠ [] → Pointed
          ((d :: tail).take (exponent.toNat + 1)
            ++ List.replicate
              (exponent.toNat + 1 - (d :: tail).length) '0')
          part := by
      intro part hPart hNonempty
      refine ⟨List.forall_mem_append.mpr
          ⟨?_, Digits.isDigit_of_mem_zeros _⟩,
        by simp, ?_, ?_, hPart, hNonempty⟩
      · intro c hMember
        exact hDigits c (List.mem_of_mem_take hMember)
      · intro rest hText
        rw [List.take_succ_cons, List.cons_append] at hText
        exact absurd (List.cons.inj hText).1 hLead
      · rw [List.length_append, List.length_take,
          List.length_replicate]
        omega
    simp only [Layout.place, if_neg (Int.not_lt.mpr hPositive)]
    split
    case h_1 =>
      exact ⟨_, ['0'], hPointed _ (by simp) (by simp), rfl,
        .inl rfl⟩
    case h_2 part hNonempty =>
      refine ⟨_, _, hPointed _ ?_ hNonempty, rfl, .inr ?_⟩
      · intro c hMember
        exact hDigits c (List.mem_of_mem_drop hMember)
      · have hShort : exponent.toNat + 1 < (d :: tail).length := by
          by_contra hLong
          exact hNonempty (List.drop_eq_nil_of_le
            (Nat.not_lt.mp hLong))
        rw [Nat.sub_eq_zero_of_le (Nat.le_of_lt hShort),
          List.replicate_zero, List.append_nil,
          List.take_append_drop]

------------------------------------------------------------
-- Scientific Forms
------------------------------------------------------------

/- The digits kept of a scientific form lower its exponent. -/
theorem read_scientific
    (minus : Bool)
    {d : Char}
    {tail : List Char}
    {exponent : Int}
    (hDigits : ∀ c ∈ d :: tail, c.isDigit = true)
    (hExponent : exponent.natAbs ≤ exponentLimit)
    {kept count : Nat}
    (hGathers : Gathers (Digits.digit d) tail kept count)
    (hEnds : Ends rest) :
    readUnsigned minus
        (Layout.scientific (d :: tail) exponent ++ rest) =
      assemble minus kept (exponent - count) rest := by
  have hLimit : significandLimit = 18446744073709551615 := rfl
  rw [List.forall_mem_cons] at hDigits
  have hDigit := Digits.digit_lt hDigits.1
  have hOne := Digits.value_singleton d
  have hFirst : ∀ after, NoDigit after →
      readUnsigned minus (d :: after) =
        afterWhole minus (Digits.digit d) after := by
    intro after hStop
    rw [← List.singleton_append, readUnsigned_digits minus
      (by simp [hDigits.1]) (by simp) (by simp) hStop
      (by omega), hOne]
  cases tail with
  | nil =>
      rcases hGathers.read 0 [] ends_nil.noDigit with
        ⟨left, _, hRead⟩
      rw [List.nil_append, gather_of_noDigit _ _
        ends_nil.noDigit] at hRead
      have hKept : Digits.digit d = kept :=
        congrArg Prod.fst hRead
      have hCount : count = 0 :=
        Nat.le_zero.mp hGathers.counted
      simp only [Layout.scientific, List.cons_append,
        List.nil_append]
      rw [hFirst _ (noDigit_cons (by decide)), afterWhole,
        readExponent_signed _ _ hExponent hEnds.noDigit, hKept,
        hCount]
      simp
  | cons e tail =>
      simp only [Layout.scientific, List.cons_append,
        List.append_assoc]
      rw [hFirst _ (noDigit_cons (by decide)), afterWhole,
        ← List.cons_append,
        readFraction_digits 0 hDigits.2 (by simp) hGathers
          (noDigit_cons (by decide)), finish,
        readExponent_signed _ _ hExponent hEnds.noDigit]
      congr 1
      omega

/-
  A number in scientific form reads as its leading digits times
  a power of ten; with a zero for each digit left they are not
  more than all digits.
-/
theorem exists_read_scientific
    (minus : Bool)
    {d : Char}
    {tail : List Char}
    {exponent : Int}
    (hDigits : ∀ c ∈ d :: tail, c.isDigit = true)
    (hExponent : exponent.natAbs ≤ exponentLimit) :
    ∃ kept count : Nat,
      Digits.digit d ≤ kept ∧
      kept ≤ significandLimit ∧
      count ≤ tail.length ∧
      10 ^ (tail.length - count) * kept ≤
        Digits.value (d :: tail) ∧
      ∀ rest, Ends rest →
        readUnsigned minus
            (Layout.scientific (d :: tail) exponent ++ rest) =
          assemble minus kept (exponent - count) rest := by
  have hLimit : significandLimit = 18446744073709551615 := rfl
  have hDigit := Digits.digit_lt (hDigits d List.mem_cons_self)
  rcases exists_gathers
    (show Digits.digit d ≤ significandLimit by omega)
    (List.forall_mem_cons.mp hDigits).2
    with ⟨kept, count, hGathers⟩
  refine ⟨kept, count, hGathers.grows, hGathers.fits,
    hGathers.counted, ?_, ?_⟩
  · rw [Digits.value_cons]
    exact hGathers.leads
  · intro rest hEnds
    exact read_scientific minus hDigits hExponent hGathers hEnds

end Factbase.Json
