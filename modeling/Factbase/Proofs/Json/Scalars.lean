import Factbase.Data.Value
import Factbase.Json.Typed
import Factbase.Proofs.Binary.Exactness

/-
  What the front of a JSON text tells of the value there.

  Every reader looks at the front first.  Of a scalar nothing
  else is left to read, so the reader of values of any shape
  takes it as it is, and so does the reader of one shape if the
  front is of that shape.

  Key definitions include:
    * `Json.Number.Fits`
    * `Json.Front.value?`

  Main declarations:
    * `Json.fits_of_readFront`
    * `Json.read_of_readFront`
    * `Json.exists_front_of_read`
-/

namespace Factbase

namespace Json

------------------------------------------------------------
-- Ranges of Numbers
------------------------------------------------------------

/-
  A negative integer has up to 64 bits and is not zero, and a
  float is some number.
-/
def Number.Fits : Number → Prop
  | .natural _ => True
  | .negative n => 0 < n ∧ n ≤ twoTo 63
  | .float x => x.code ≤ Format.double.infinity

variable {minus : Bool}
variable {significand : Nat}
variable {exponent : Int}
variable {cs r : List Char}
variable {n : Number}

/- Scaling does not lead beyond infinity. -/
theorem code_scale_le
    {x y : Binary64}
    {fuel : Nat}
    (hCode : x.code ≤ Format.double.infinity)
    (hScale : scale x exponent fuel = some y) :
    y.code ≤ Format.double.infinity := by
  induction fuel generalizing x exponent with
  | zero =>
      rw [scale, Option.some.injEq] at hScale
      rwa [← hScale]
  | succ fuel ih =>
      simp only [scale] at hScale
      split_ifs at hScale with hNear hUp hFinite hZero
      · rw [← Option.some.inj hScale]
        exact Format.round_le_infinity _ _ _
      · rw [← Option.some.inj hScale]
        exact Format.round_le_infinity _ _ _
      · rwa [← Option.some.inj hScale]
      · exact ih (Format.round_le_infinity _ _ _) hScale

/- A number that is put together fits its kind. -/
theorem fits_of_assemble
    (hRead : assemble minus significand exponent cs = .ok (n, r)) :
    n.Fits := by
  rw [assemble] at hRead
  split at hRead
  case h_1 x hScale =>
    have hCode : x.code ≤ Format.double.infinity :=
      code_scale_le (Format.round_le_infinity _ _ _) hScale
    rw [← (Prod.mk.inj (Except.ok.inj hRead)).1]
    cases minus <;> exact hCode
  case h_2 => cases hRead

theorem fits_of_readExponent
    (hRead :
      readExponent minus significand exponent cs = .ok (n, r)) :
    n.Fits := by
  simp only [readExponent] at hRead
  split at hRead
  case h_1 => cases hRead
  case h_2 =>
    split at hRead
    · cases hRead
    · split at hRead
      · exact fits_of_assemble hRead
      · split at hRead
        · cases hRead
        · rw [← (Prod.mk.inj (Except.ok.inj hRead)).1]
          exact Nat.zero_le _

theorem fits_of_finish
    (hRead : finish minus significand exponent cs = .ok (n, r)) :
    n.Fits := by
  rw [finish.eq_def] at hRead
  split at hRead
  case h_1 => exact fits_of_readExponent hRead
  case h_2 => exact fits_of_readExponent hRead
  case h_3 => exact fits_of_assemble hRead

theorem fits_of_readFraction
    (hRead :
      readFraction minus significand exponent cs = .ok (n, r)) :
    n.Fits := by
  rw [readFraction.eq_def] at hRead
  split at hRead
  case h_1 => cases hRead
  case h_2 =>
    split_ifs at hRead
    exact fits_of_finish hRead

/- A whole number fits, as a float where it is too great. -/
theorem fits_whole (minus : Bool) (significand : Nat) :
    (whole minus significand).Fits := by
  rw [whole]
  split_ifs with hPlus hNegative
  · trivial
  · exact hNegative
  · exact Format.round_le_infinity _ _ _

/- So every number that is read fits its kind. -/
theorem fits_of_readUnsigned
    (hRead : readUnsigned minus cs = .ok (n, r)) : n.Fits := by
  rw [readUnsigned.eq_def] at hRead
  split at hRead
  case h_1 => cases hRead
  case h_2 =>
    split_ifs at hRead
    simp only at hRead
    split at hRead
    case h_1 => exact fits_of_readFraction hRead
    case h_2 => exact fits_of_readExponent hRead
    case h_3 => exact fits_of_readExponent hRead
    case h_4 =>
      split_ifs at hRead
      · rw [← (Prod.mk.inj (Except.ok.inj hRead)).1]
        exact fits_whole _ _
      · exact fits_of_assemble hRead

/- A reader of something else does not read a front. -/
theorem map_ne_front
    {α : Type}
    {result : Except Flaw α}
    {f : α → Front × List Char}
    {front : Front}
    (hFront : ∀ x, (f x).1 ≠ front) :
    result.map f ≠ .ok (front, r) := by
  intro hRead
  cases result with
  | error flaw => cases hRead
  | ok x => exact hFront x (by rw [Except.ok.inj hRead])

/- A number at the front is in the range of its kind. -/
theorem fits_of_readFront
    (hRead : readFront cs = .ok (.number n, r)) : n.Fits := by
  have hMapped : ∀ {minus : Bool} {cs : List Char},
      ((readUnsigned minus cs).map fun result =>
        (Front.number result.1, result.2)) = .ok (.number n, r) →
        n.Fits := by
    intro minus cs hRead
    cases hNumber : readUnsigned minus cs with
    | error flaw =>
        rw [hNumber] at hRead
        cases hRead
    | ok result =>
        rw [hNumber] at hRead
        cases hRead
        exact fits_of_readUnsigned hNumber
  rw [readFront.eq_def] at hRead
  -- the cases are the characters that a value can start with
  split at hRead
  case h_1 | h_6 | h_7 => cases hRead
  case h_2 | h_3 | h_4 | h_5 =>
    exact absurd hRead (map_ne_front (by simp))
  case h_8 => exact hMapped hRead
  case h_9 =>
    split_ifs at hRead
    exact hMapped hRead

------------------------------------------------------------
-- Values of Scalars
------------------------------------------------------------

/- The value of a scalar at the front. -/
def Front.value? : Front → Option Value
  | .null => some .null
  | .bool b => some (.bool b)
  | .number n => some (Value.ofNumber n)
  | .text s => some (Value.ofText s)
  | .list | .object => none

/- A scalar is read as its value, whatever the depth. -/
theorem read_of_readFront
    {front : Front}
    {v : Value}
    (budget : Nat)
    (hFront : readFront cs = .ok (front, r))
    (hScalar : front.value? = some v) :
    Value.read budget cs = .ok (v, r) := by
  rw [Value.read, readTree, hFront]
  cases front with
  | null | bool b | number n | text s =>
      cases hScalar
      rfl
  | list | object => cases hScalar

/- What is no list and no map is the value of a scalar. -/
theorem exists_front_of_read
    {budget : Nat}
    {v : Value}
    (hRead : Value.read budget cs = .ok (v, r))
    (hList : ∀ vs, v ≠ .list vs)
    (hMap : ∀ entries, v ≠ .map entries) :
    ∃ front, readFront cs = .ok (front, r) ∧
      front.value? = some v := by
  rw [Value.read, readTree] at hRead
  cases hFront : readFront cs with
  | error flaw =>
      rw [hFront] at hRead
      cases hRead
  | ok result =>
      rcases result with ⟨front, rest⟩
      rw [hFront] at hRead
      cases front with
      | null | bool b | number n | text s =>
          cases hRead
          exact ⟨_, rfl, rfl⟩
      | list =>
          cases budget with
          | zero => cases hRead
          | succ budget =>
              cases hItems : items (readTree budget) rest with
              | error flaw =>
                  simp only [bind, Except.bind, hItems] at hRead
                  cases hRead
              | ok parts =>
                  simp only [bind, Except.bind, hItems] at hRead
                  cases hRead
                  exact absurd rfl (hList _)
      | object =>
          cases budget with
          | zero => cases hRead
          | succ budget =>
              cases hMembers : members (readTree budget) rest with
              | error flaw =>
                  simp only [bind, Except.bind, hMembers] at hRead
                  cases hRead
              | ok parts =>
                  simp only [bind, Except.bind, hMembers] at hRead
                  cases hRead
                  exact absurd rfl (hMap _)

end Json

end Factbase
