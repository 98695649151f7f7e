import Factbase.Text.Digits
import Mathlib.Algebra.Group.Nat.Defs

/-
  Numerals and their order.

  Numerals of one length are ordered as the numbers that they
  stand for, so numbers that are filled up to one width compare
  as texts, whatever follows them.  Integers of one count of
  digits compare as texts too, but two that are below zero do so
  the other way round.

  Key definitions include:
    * `Digits.count`
    * `Digits.TextBefore`

  Main declarations:
    * `Digits.value_append`
    * `Digits.lt_iff_value_lt`
    * `Digits.value_padded`
    * `Digits.padded_append_lt_iff`
    * `Digits.writeInt_inj`
    * `Digits.writeInt_lt_iff`
-/

namespace Factbase.Digits

variable {xs ys us vs : List Char}
variable {m n width : Nat}

------------------------------------------------------------
-- Values
------------------------------------------------------------

/-
  Digits to the left count as many tens as there are digits to
  the right.
-/
theorem value_append (xs ys : List Char) :
    value (xs ++ ys) =
      10 ^ ys.length * value xs + value ys := by
  rw [value, Nat.ofDigitChars_append,
    Nat.ofDigitChars_eq_ofDigitChars_zero]
  rfl

theorem value_singleton (c : Char) : value [c] = digit c := by
  rw [value, Nat.ofDigitChars_cons, Nat.ofDigitChars_nil,
    Nat.mul_zero, Nat.zero_add, digit]

/- The first digit counts by how many digits follow it. -/
theorem value_cons (c : Char) (cs : List Char) :
    value (c :: cs) = 10 ^ cs.length * digit c + value cs := by
  rw [← value_singleton, ← value_append]
  rfl

/- Zeros count nothing. -/
theorem value_replicate_zero (count : Nat) :
    value (List.replicate count '0') = 0 := by
  induction count with
  | zero => rfl
  | succ count ih =>
      rw [List.replicate_succ, value_cons, ih]
      simp [digit]

/- Zeros before a number do not change it. -/
theorem value_zeros_append (count : Nat) (xs : List Char) :
    value (List.replicate count '0' ++ xs) = value xs := by
  rw [value_append, value_replicate_zero, Nat.mul_zero,
    Nat.zero_add]

/- Zeros after a number scale it. -/
theorem value_append_zeros (xs : List Char) (count : Nat) :
    value (xs ++ List.replicate count '0') =
      10 ^ count * value xs := by
  rw [value_append, value_replicate_zero, List.length_replicate,
    Nat.add_zero]

theorem isDigit_of_mem_zeros (count : Nat) :
    ∀ c ∈ List.replicate count '0', c.isDigit = true := by
  intro c hMember
  rw [List.eq_of_mem_replicate hMember]
  rfl

/- A digit is less than ten. -/
theorem digit_lt {c : Char} (hDigit : c.isDigit = true) :
    digit c < 10 := by
  have hBounds := Char.isDigit_iff_toNat.mp hDigit
  simp only [digit, Char.reduceToNat] at *
  omega

/- Digits stand for less than the power of ten of their count. -/
theorem value_lt (hDigits : ∀ c ∈ xs, c.isDigit = true) :
    value xs < 10 ^ xs.length := by
  induction xs with
  | nil => decide
  | cons c cs ih =>
      rw [List.forall_mem_cons] at hDigits
      have hRest := ih hDigits.2
      have hHead : 10 ^ cs.length * digit c ≤
          10 ^ cs.length * 9 :=
        Nat.mul_le_mul_left _
          (Nat.le_of_lt_succ (digit_lt hDigits.1))
      rw [value_cons, List.length_cons, Nat.pow_succ]
      omega

/- A numeral has a first digit. -/
theorem exists_write_eq_cons (n : Nat) :
    ∃ d tail, write n = d :: tail ∧
      ∀ c ∈ d :: tail, c.isDigit = true := by
  rcases List.exists_cons_of_ne_nil (write_ne_nil n)
    with ⟨d, tail, hWrite⟩
  refine ⟨d, tail, hWrite, ?_⟩
  intro c hMember
  rw [← hWrite] at hMember
  exact isDigit_of_mem_write hMember

/- A written integer starts with a minus sign or a digit. -/
theorem exists_writeInt_eq_cons (n : Int) :
    ∃ c cs, writeInt n = c :: cs ∧
      (c = '-' ∨ c.isDigit = true) := by
  cases n with
  | ofNat n =>
      rcases exists_write_eq_cons n with ⟨d, tail, hWrite, hDigits⟩
      exact ⟨d, tail, hWrite, .inr (hDigits d List.mem_cons_self)⟩
  | negSucc n => exact ⟨'-', _, rfl, .inl rfl⟩

------------------------------------------------------------
-- Order
------------------------------------------------------------

/- Digits are ordered by their values. -/
theorem digit_lt_iff
    {c d : Char}
    (hC : c.isDigit = true)
    (hD : d.isDigit = true) :
    c < d ↔ digit c < digit d := by
  have hBoundsC := Char.isDigit_iff_toNat.mp hC
  have hBoundsD := Char.isDigit_iff_toNat.mp hD
  simp only [digit, Char.reduceToNat] at *
  change c.toNat < d.toNat ↔ _
  omega

/- Digits of one value are the same character. -/
theorem digit_inj
    {c d : Char}
    (hC : c.isDigit = true)
    (hD : d.isDigit = true) :
    digit c = digit d ↔ c = d := by
  have hBoundsC := Char.isDigit_iff_toNat.mp hC
  have hBoundsD := Char.isDigit_iff_toNat.mp hD
  rw [← Char.toNat_inj]
  simp only [digit, Char.reduceToNat] at *
  omega

/- The leading part decides, unless it is the same. -/
theorem mul_add_lt_iff
    {size a b r s : Nat}
    (hR : r < size)
    (hS : s < size) :
    size * a + r < size * b + s ↔
      a < b ∨ a = b ∧ r < s := by
  rcases Nat.lt_trichotomy a b with hLess | rfl | hGreater
  · have hStep := Nat.mul_le_mul_left size
      (Nat.succ_le_of_lt hLess)
    rw [Nat.mul_succ] at hStep
    omega
  · omega
  · have hStep := Nat.mul_le_mul_left size
      (Nat.succ_le_of_lt hGreater)
    rw [Nat.mul_succ] at hStep
    omega

/- Numerals of one length are ordered by their values. -/
theorem lt_iff_value_lt
    (hLength : xs.length = ys.length)
    (hXs : ∀ c ∈ xs, c.isDigit = true)
    (hYs : ∀ c ∈ ys, c.isDigit = true) :
    xs < ys ↔ value xs < value ys := by
  induction xs generalizing ys with
  | nil =>
      rw [List.length_eq_zero_iff.mp hLength.symm]
      simp
  | cons x xs ih =>
      cases ys with
      | nil => simp at hLength
      | cons y ys =>
          rw [List.forall_mem_cons] at hXs hYs
          rw [List.length_cons, List.length_cons,
            Nat.succ_inj] at hLength
          have hBoundX := value_lt hXs.2
          have hBoundY := value_lt hYs.2
          rw [hLength] at hBoundX
          rw [List.cons_lt_cons_iff, ih hLength hXs.2 hYs.2,
            value_cons, value_cons, hLength,
            mul_add_lt_iff hBoundX hBoundY,
            digit_lt_iff hXs.1 hYs.1, digit_inj hXs.1 hYs.1]

/- Of texts that go on after parts of one length, the parts
   decide, unless they are the same. -/
theorem append_lt_append_iff
    (hLength : xs.length = ys.length) :
    xs ++ us < ys ++ vs ↔ xs < ys ∨ xs = ys ∧ us < vs := by
  induction xs generalizing ys with
  | nil =>
      rw [List.length_eq_zero_iff.mp hLength.symm]
      simp
  | cons x xs ih =>
      cases ys with
      | nil => simp at hLength
      | cons y ys =>
          rw [List.length_cons, List.length_cons,
            Nat.succ_inj] at hLength
          simp only [List.cons_append, List.cons_lt_cons_iff,
            ih hLength, List.cons.injEq, and_or_left, or_assoc,
            and_assoc]

------------------------------------------------------------
-- Numbers of One Width
------------------------------------------------------------

/- A padded number has only digits. -/
theorem isDigit_of_mem_padded
    {c : Char}
    (hMember : c ∈ padded width n) : c.isDigit = true := by
  rw [padded, List.leftpad, List.mem_append] at hMember
  rcases hMember with hZero | hNumeral
  · rw [List.eq_of_mem_replicate hZero]
    rfl
  · exact isDigit_of_mem_write hNumeral

/- Padding does not change the value. -/
theorem value_padded (width n : Nat) :
    value (padded width n) = n := by
  rw [padded, List.leftpad, value_append, value_write,
    value_replicate_zero, Nat.mul_zero, Nat.zero_add]

/- A number that fits is padded to the width. -/
theorem length_padded
    (hPositive : 0 < width)
    (hBound : n < 10 ^ width) :
    (padded width n).length = width := by
  have hLength : (write n).length ≤ width :=
    (Nat.length_toDigits_le_iff (by decide) hPositive).mpr hBound
  rw [padded, List.length_leftpad]
  omega

/- Numbers of one width decide the order of texts. -/
theorem padded_append_lt_iff
    (hPositive : 0 < width)
    (hM : m < 10 ^ width)
    (hN : n < 10 ^ width) :
    padded width m ++ us < padded width n ++ vs ↔
      m < n ∨ m = n ∧ us < vs := by
  have hLength : (padded width m).length =
      (padded width n).length := by
    rw [length_padded hPositive hM, length_padded hPositive hN]
  have hSame : padded width m = padded width n ↔ m = n := by
    constructor
    · intro hTexts
      rw [← value_padded width m, hTexts, value_padded]
    · exact congrArg _
  rw [append_lt_append_iff hLength,
    lt_iff_value_lt hLength (fun _ => isDigit_of_mem_padded)
      (fun _ => isDigit_of_mem_padded),
    value_padded, value_padded, hSame]

------------------------------------------------------------
-- Integers
------------------------------------------------------------

/- How many digits an integer has. -/
def count (n : Int) : Nat :=
  (write n.natAbs).length

/-
  The order of the texts of integers with one count of digits.
  The minus sign comes before all digits, and after it the digits
  of the greater number come later.
-/
def TextBefore (a b : Int) : Prop :=
  if a < 0 ∧ b < 0 then b < a else a < b

instance (a b : Int) : Decidable (TextBefore a b) :=
  inferInstanceAs
    (Decidable (if a < 0 ∧ b < 0 then b < a else a < b))

/- Unless both are negative, this is the order of numbers. -/
theorem textBefore_iff_lt
    {a b : Int}
    (hSign : 0 ≤ a ∨ 0 ≤ b) : TextBefore a b ↔ a < b := by
  rw [TextBefore, if_neg (by omega)]

/- Of two negative numbers, the greater one comes first. -/
theorem textBefore_iff_gt
    {a b : Int}
    (hA : a < 0)
    (hB : b < 0) : TextBefore a b ↔ b < a := by
  rw [TextBefore, if_pos ⟨hA, hB⟩]

/- The minus sign comes before all digits. -/
theorem writeInt_negSucc_lt (m n : Nat) :
    writeInt (.negSucc m) < writeInt (.ofNat n) := by
  rcases exists_write_eq_cons n with ⟨d, tail, hWrite, hDigits⟩
  have hBounds := Char.isDigit_iff_toNat.mp
    (hDigits d List.mem_cons_self)
  have hMinus : '-' < d := by
    simp only [Char.reduceToNat] at hBounds
    change ('-').toNat < d.toNat
    simp only [Char.reduceToNat]
    omega
  rw [writeInt, writeInt, hWrite, List.cons_lt_cons_iff]
  exact .inl hMinus

/- Numerals of one length compare as their numbers do. -/
theorem write_lt_iff
    (hLength : (write m).length = (write n).length) :
    write m < write n ↔ m < n := by
  rw [lt_iff_value_lt hLength (fun _ => isDigit_of_mem_write)
    (fun _ => isDigit_of_mem_write), value_write, value_write]

/- The texts of integers with one count of digits. -/
theorem writeInt_lt_iff
    {a b : Int}
    (hCount : count a = count b) :
    writeInt a < writeInt b ↔ TextBefore a b := by
  cases a with
  | ofNat m =>
      have hSign : 0 ≤ Int.ofNat m := Int.natCast_nonneg m
      rw [textBefore_iff_lt (.inl hSign)]
      cases b with
      | ofNat n => exact (write_lt_iff hCount).trans Int.ofNat_lt.symm
      | negSucc n =>
          have hBelow := Int.negSucc_lt_zero n
          exact iff_of_false
            (List.lt_asymm (writeInt_negSucc_lt n m)) (by omega)
  | negSucc m =>
      have hBelow := Int.negSucc_lt_zero m
      cases b with
      | ofNat n =>
          have hSign : 0 ≤ Int.ofNat n := Int.natCast_nonneg n
          rw [textBefore_iff_lt (.inr hSign)]
          exact iff_of_true (writeInt_negSucc_lt m n) (by omega)
      | negSucc n =>
          have hLength : (write (m + 1)).length =
              (write (n + 1)).length := hCount
          rw [textBefore_iff_gt hBelow (Int.negSucc_lt_zero n),
            writeInt, writeInt, List.cons_lt_cons_self,
            write_lt_iff hLength]
          omega

/- Different integers have different texts. -/
theorem writeInt_inj {a b : Int} :
    writeInt a = writeInt b ↔ a = b := by
  refine ⟨fun hTexts => ?_, congrArg writeInt⟩
  have hWrite : ∀ {m n : Nat}, write m = write n → m = n := by
    intro m n hSame
    rw [← value_write m, hSame, value_write]
  cases a with
  | ofNat m =>
      cases b with
      | ofNat n => exact congrArg Int.ofNat (hWrite hTexts)
      | negSucc n =>
          have hLess := writeInt_negSucc_lt n m
          rw [hTexts] at hLess
          exact absurd hLess (List.lt_irrefl _)
  | negSucc m =>
      cases b with
      | ofNat n =>
          have hLess := writeInt_negSucc_lt m n
          rw [hTexts] at hLess
          exact absurd hLess (List.lt_irrefl _)
      | negSucc n =>
          have hNumbers := hWrite (List.cons.inj hTexts).2
          exact congrArg Int.negSucc (Nat.succ.inj hNumbers)

end Factbase.Digits
