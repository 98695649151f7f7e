import Factbase.Json.Tree
import Factbase.Proofs.Text.Numerals
import Mathlib.Data.List.Basic

/-
  Written integers and what they read as.

  A numeral ends where the next character is no part of a
  number.  Integers of 64 bits read back as themselves.

  Key definitions include:
    * `Json.Ends`

  Main declarations:
    * `Json.gather_digits`
    * `Json.readUnsigned_digits`
    * `Json.readFront_writeInt`
-/

namespace Factbase

------------------------------------------------------------
-- Leading Zeros
------------------------------------------------------------

/- Only the numeral of zero starts with the digit zero. -/
theorem Digits.tail_of_write
    {n : Nat}
    {ds : List Char}
    (hWrite : write n = '0' :: ds) : ds = [] := by
  have hValue : value ds = n := by
    rw [← value_write n, hWrite, value_cons]
    simp [digit]
  have hDigits : ∀ c ∈ ds, c.isDigit = true := by
    intro c hMember
    apply isDigit_of_mem_write (n := n)
    rw [hWrite]
    exact List.mem_cons_of_mem _ hMember
  by_contra hNonempty
  have hShort : (write n).length ≤ ds.length := by
    apply (Nat.length_toDigits_le_iff (by decide)
      (List.length_pos_iff.mpr hNonempty)).mpr
    rw [← hValue]
    exact value_lt hDigits
  rw [hWrite, List.length_cons] at hShort
  omega

/- Digits after a number, the first of them taken into it. -/
theorem Digits.value_cons_after
    (n : Nat)
    (c : Char)
    (ds : List Char) :
    10 ^ (c :: ds).length * n + value (c :: ds) =
      10 ^ ds.length * (n * 10 + digit c) + value ds := by
  rw [value_cons, List.length_cons, Nat.pow_succ, Nat.mul_add,
    Nat.mul_assoc, Nat.mul_comm 10, Nat.add_assoc]

namespace Json

variable {ds rest : List Char}
variable {c : Char}

------------------------------------------------------------
-- Digits
------------------------------------------------------------

/- The next character, if there is one, is no digit. -/
def NoDigit (rest : List Char) : Prop :=
  ∀ c ∈ rest.head?, c.isDigit = false

theorem takeWhile_of_noDigit (hStop : NoDigit rest) :
    rest.takeWhile Char.isDigit = [] := by
  cases rest with
  | nil => rfl
  | cons c rest => simp [hStop c rfl]

theorem dropWhile_of_noDigit (hStop : NoDigit rest) :
    rest.dropWhile Char.isDigit = rest := by
  cases rest with
  | nil => rfl
  | cons c rest => simp [hStop c rfl]

/- Where no digit comes next, nothing more is gathered. -/
theorem gather_of_noDigit
    (significand taken : Nat)
    (hStop : NoDigit rest) :
    gather significand taken rest = (significand, taken, rest) := by
  cases rest with
  | nil => rfl
  | cons c rest => simp [gather, hStop c rfl]

/- Digits that fit are gathered all. -/
theorem gather_digits
    (significand taken : Nat)
    (hDigits : ∀ c ∈ ds, c.isDigit = true)
    (hStop : NoDigit rest)
    (hFits : 10 ^ ds.length * significand + Digits.value ds ≤
      significandLimit) :
    gather significand taken (ds ++ rest) =
      (10 ^ ds.length * significand + Digits.value ds,
        taken + ds.length, rest) := by
  induction ds generalizing significand taken with
  | nil =>
      rw [List.nil_append, gather_of_noDigit _ _ hStop]
      simp [Digits.value]
  | cons c ds ih =>
      rw [List.forall_mem_cons] at hDigits
      rw [Digits.value_cons_after] at hFits ⊢
      have hNext : significand * 10 + Digits.digit c ≤
          significandLimit := by
        have hScale := Nat.le_mul_of_pos_left
          (significand * 10 + Digits.digit c)
          (Nat.pow_pos (n := ds.length) (by decide : 0 < 10))
        omega
      rw [List.cons_append, gather, if_pos hDigits.1]
      simp only [if_neg (Nat.not_lt.mpr hNext)]
      rw [ih _ _ hDigits.2 hFits, List.length_cons]
      simp only [Prod.mk.injEq, true_and, and_true]
      omega

/- What follows the digits of a number that fit. -/
def afterWhole
    (minus : Bool)
    (significand : Nat) :
    List Char → Except Flaw (Number × List Char)
  | '.' :: r => readFraction minus significand 0 r
  | 'e' :: r => readExponent minus significand 0 r
  | 'E' :: r => readExponent minus significand 0 r
  | r => .ok (whole minus significand, r)

/-
  The digits before a point or an exponent, or all digits of a
  whole number, if they fit.
-/
theorem readUnsigned_digits
    (minus : Bool)
    (hDigits : ∀ c ∈ ds, c.isDigit = true)
    (hNonempty : ds ≠ [])
    (hLead : ∀ tail, ds = '0' :: tail → tail = [])
    (hStop : NoDigit rest)
    (hFits : Digits.value ds ≤ significandLimit) :
    readUnsigned minus (ds ++ rest) =
      afterWhole minus (Digits.value ds) rest := by
  rcases List.exists_cons_of_ne_nil hNonempty with ⟨d, tail, rfl⟩
  have hDigit := hDigits d List.mem_cons_self
  have hNotLead :
      ¬ (d = '0' ∧ ((tail ++ rest).head?.any Char.isDigit) = true) := by
    rintro ⟨rfl, hNext⟩
    rw [hLead tail rfl, List.nil_append] at hNext
    cases rest with
    | nil => simp at hNext
    | cons c rest => simp [hStop c rfl] at hNext
  have hGather := gather_digits 0 0
    hDigits hStop (by simpa using hFits)
  rw [Nat.mul_zero, Nat.zero_add] at hGather
  rw [List.cons_append] at hGather ⊢
  rw [readUnsigned]
  simp only [hDigit, Bool.not_true, Bool.false_eq_true, if_false,
    if_neg hNotLead, hGather, takeWhile_of_noDigit hStop,
    dropWhile_of_noDigit hStop, List.length_nil, if_true]
  rfl

------------------------------------------------------------
-- Ends of Numbers
------------------------------------------------------------

/- The next character, if there is one, goes on with no number. -/
def Ends (rest : List Char) : Prop :=
  ∀ c ∈ rest.head?,
    c.isDigit = false ∧ c ≠ '.' ∧ c ≠ 'e' ∧ c ≠ 'E'

/- Where a number ends, no digit comes next. -/
theorem Ends.noDigit (hEnds : Ends rest) : NoDigit rest :=
  fun c hHead => (hEnds c hHead).1

theorem ends_nil : Ends [] := by
  intro c hHead
  cases hHead

theorem ends_cons
    (hMark : c.isDigit = false ∧ c ≠ '.' ∧ c ≠ 'e' ∧ c ≠ 'E') :
    Ends (c :: rest) := by
  intro d hHead
  cases hHead
  exact hMark

/-
  A number that ends after its whole part is an integer, or a
  float where it is too great.
-/
theorem afterWhole_of_ends
    (minus : Bool)
    (significand : Nat)
    (hEnds : Ends rest) :
    afterWhole minus significand rest =
      .ok (whole minus significand, rest) := by
  cases rest with
  | nil => rfl
  | cons c rest =>
      rcases hEnds c rfl with ⟨_, hPoint, hLower, hUpper⟩
      unfold afterWhole
      split <;> simp_all

------------------------------------------------------------
-- Fronts
------------------------------------------------------------

theorem isSpace_of_isDigit (hDigit : c.isDigit = true) :
    isSpace c = false := by
  have hBounds := Char.isDigit_iff_toNat.mp hDigit
  cases hSpace : isSpace c with
  | false => rfl
  | true =>
      simp only [isSpace, Bool.or_eq_true,
        decide_eq_true_eq] at hSpace
      rcases hSpace with ((rfl | rfl) | rfl) | rfl <;>
        exact absurd hDigit (by decide)

theorem skipBlank_cons (hMark : isSpace c = false) :
    skipBlank (c :: rest) = c :: rest :=
  List.dropWhile_cons_of_neg (by simp [hMark])

/- A document that starts with a digit is a number. -/
theorem readFront_digit (hDigit : c.isDigit = true) :
    readFront (c :: rest) =
      (readUnsigned false (c :: rest)).map
        fun (n, r) => (.number n, r) := by
  rw [readFront, skipBlank_cons (isSpace_of_isDigit hDigit)]
  split
  case h_9 =>
    rename_i hText
    cases hText
    exact if_pos hDigit
  all_goals
    rename_i hText
    cases hText <;> exact absurd hDigit (by decide)

theorem readFront_minus :
    readFront ('-' :: rest) =
      (readUnsigned true rest).map
        fun (n, r) => (.number n, r) :=
  rfl

------------------------------------------------------------
-- Integers
------------------------------------------------------------

/- The number that an integer reads as. -/
def Number.ofInt : Int → Number
  | .ofNat n => .natural n
  | .negSucc n => .negative (n + 1)

/- A written number is read if 64 bits hold it. -/
theorem readUnsigned_write
    (minus : Bool)
    {n : Nat}
    (hFits : n ≤ significandLimit)
    (hEnds : Ends rest) :
    readUnsigned minus (Digits.write n ++ rest) =
      .ok (whole minus n, rest) := by
  rw [readUnsigned_digits minus
    (fun _ => Digits.isDigit_of_mem_write)
    (Digits.write_ne_nil n) (fun _ => Digits.tail_of_write)
    hEnds.noDigit ((Digits.value_write n).symm ▸ hFits),
    Digits.value_write, afterWhole_of_ends minus n hEnds]

/-
  An integer of 64 bits, with a sign or without, reads back as
  it was written.
-/
theorem readFront_writeInt
    {n : Int}
    (hLow : -twoTo 63 ≤ n)
    (hHigh : n < twoTo 64)
    (hEnds : Ends rest) :
    readFront (Digits.writeInt n ++ rest) =
      .ok (.number (.ofInt n), rest) := by
  have hLimit : significandLimit = 18446744073709551615 := rfl
  have hHalf : twoTo 63 = 9223372036854775808 := rfl
  cases n with
  | ofNat n =>
      have hFits : n ≤ significandLimit :=
        Nat.le_sub_one_of_lt (Int.ofNat_lt.mp hHigh)
      rcases Digits.exists_write_eq_cons n
        with ⟨d, tail, hWrite, hDigits⟩
      rw [Digits.writeInt, hWrite, List.cons_append,
        readFront_digit (hDigits d List.mem_cons_self),
        ← List.cons_append, ← hWrite,
        readUnsigned_write false hFits hEnds]
      rfl
  | negSucc n =>
      have hBound : n + 1 ≤ twoTo 63 := by
        rw [Int.negSucc_eq] at hLow
        omega
      have hWhole : whole true (n + 1) = .negative (n + 1) := by
        simp [whole, hBound]
      rw [Digits.writeInt, List.cons_append, readFront_minus,
        readUnsigned_write true (by omega) hEnds, hWhole]
      rfl

end Json

end Factbase
