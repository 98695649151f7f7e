import Factbase.Data.Codec
import Factbase.Proofs.Calendar.Offsets
import Factbase.Proofs.Text.ByteOrder
import Mathlib.Data.List.Basic

/-
  The order of instants and the order of their stored bytes.

  Years of four digits give texts of one width whose parts go
  from the year down to the nanosecond, so the bytes of two
  instants compare as the instants do.  A leap second in the
  middle of a minute compares as the second that follows.

  Key definitions include:
    * `Instant.FixedWidth`
    * `Instant.Dated`

  Main declarations:
    * `Instant.encode_moment`
    * `Instant.utf8_text_lt_iff`
    * `Instant.encode_dated`
-/

namespace Factbase

------------------------------------------------------------
-- Plain Characters
------------------------------------------------------------

namespace Json

theorem escape_of_isDigit
    {c : Char}
    (hDigit : c.isDigit = true) : escape c = [c] := by
  have hBounds := Char.isDigit_iff_toNat.mp hDigit
  have hNe : ∀ d : Char, d.toNat < 48 ∨ 57 < d.toNat → c ≠ d := by
    rintro d hOutside rfl
    simp only [Char.reduceToNat] at hBounds
    omega
  simp only [Char.reduceToNat] at hBounds
  have hPrintable : ¬ c.toNat < 32 := by omega
  simp [escape, hNe, hPrintable]

theorem flatMap_escape_padded (width n : Nat) :
    (Digits.padded width n).flatMap escape =
      Digits.padded width n := by
  calc (Digits.padded width n).flatMap escape
      = (Digits.padded width n).flatMap fun c => [c] :=
        List.flatMap_congr fun _ hMember =>
          escape_of_isDigit (Digits.isDigit_of_mem_padded hMember)
    _ = Digits.padded width n := List.flatMap_singleton' _

end Json

------------------------------------------------------------
-- Order of Fixed Texts
------------------------------------------------------------

namespace Stamp

variable {us : List Char}

/- Readings with years of four digits compare as their texts. -/
theorem dateTime_append_lt_iff
    {c d : Clock}
    (hC : Legible c)
    (hD : Legible d)
    (hYearC : FourDigits c.date.year)
    (hYearD : FourDigits d.date.year) :
    dateTime c ++ (fullFraction c.nanos ++ us) <
        dateTime d ++ (fullFraction d.nanos ++ us) ↔
      c.before d := by
  have hDaysC := (Date.daysIn_bounds c.date.year c.date.month).2
  have hDaysD := (Date.daysIn_bounds d.date.year d.date.month).2
  rcases c with ⟨⟨yearC, _, _⟩, _, _, _, _, _⟩
  rcases d with ⟨⟨yearD, _, _⟩, _, _, _, _, _⟩
  rcases hC with ⟨⟨_, _, _, _⟩, _, _, _, _, _⟩
  rcases hD with ⟨⟨_, _, _, _⟩, _, _, _, _, _⟩
  rcases hYearC with ⟨hLowC, hHighC⟩
  rcases hYearD with ⟨hLowD, hHighD⟩
  simp only at *
  simp only [dateTime, year, if_pos (And.intro hLowC hHighC),
    if_pos (And.intro hLowD hHighD), fullFraction,
    List.append_assoc, List.cons_append]
  simp (disch := omega) only [Digits.padded_append_lt_iff,
    List.cons_lt_cons_self, List.lt_irrefl, and_false, or_false]
  simp only [Clock.before, Clock.earlier, Date.before,
    Date.mk.injEq]
  omega

/- Later instants have later texts, and the other way round. -/
theorem fixed_append_lt_iff
    {a b : Instant}
    (ha : a.Proper)
    (hb : b.Proper)
    (hYearA : InFourDigits a)
    (hYearB : InFourDigits b) :
    fixed a ++ us < fixed b ++ us ↔ a.before b := by
  have hTexts : ∀ {a b : Instant},
      a.Proper → b.Proper → InFourDigits a → InFourDigits b →
        a.before b → fixed a ++ us < fixed b ++ us := by
    intro a b ha hb hYearA hYearB hBefore
    rw [fixed_eq, fixed_eq, List.append_assoc,
      List.append_assoc, List.append_assoc, List.append_assoc,
      dateTime_append_lt_iff (legible_clock ha)
        (legible_clock hb) hYearA hYearB]
    exact Instant.clock_before ha hBefore
  constructor
  · intro hLess
    rcases Instant.before_trichotomy a b with
      hBefore | rfl | hAfter
    · exact hBefore
    · exact absurd hLess (List.lt_irrefl _)
    · exact absurd (hTexts hb ha hYearB hYearA hAfter)
        (List.lt_asymm hLess)
  · exact hTexts ha hb hYearA hYearB

/- A timestamp stands in a string as it is. -/
theorem flatMap_escape_fixed
    {t : Instant}
    (hYear : InFourDigits t) :
    (fixed t).flatMap Json.escape = fixed t := by
  have hDash : Json.escape '-' = ['-'] := by decide
  have hLetter : Json.escape 'T' = ['T'] := by decide
  have hColon : Json.escape ':' = [':'] := by decide
  have hPoint : Json.escape '.' = ['.'] := by decide
  have hZulu : Json.escape 'Z' = ['Z'] := by decide
  unfold InFourDigits FourDigits at hYear
  simp only [fixed_eq, dateTime, year, if_pos hYear,
    fullFraction, List.flatMap_append, List.flatMap_cons,
    List.flatMap_nil, Json.flatMap_escape_padded, hDash, hLetter,
    hColon, hPoint, hZulu, List.cons_append, List.nil_append]

end Stamp

------------------------------------------------------------
-- Order of Stored Instants
------------------------------------------------------------

namespace Instant

variable {a b t : Instant}

/-
  An instant whose stored text has the width of all others, with
  a leap second only at the end of a minute.
-/
def FixedWidth (t : Instant) : Prop :=
  t.Proper ∧ Stamp.InFourDigits t

instance (t : Instant) : Decidable t.FixedWidth := by
  unfold FixedWidth
  infer_instance

/- The stored text of such an instant. -/
def text (t : Instant) : String :=
  .ofList (Json.quoted (Stamp.fixed t))

/-
  An instant with a year of four digits has a text of fixed
  width.
-/
theorem encode_moment (ht : t.FixedWidth) :
    encode (.moment t.utc) = .ok t.text := by
  simp only [encode, Datum.encode, Datum.encodeChars,
    Stamp.momentText_utc ht.1, if_pos ht.2]
  rfl

/- Nothing in such a text is escaped. -/
theorem quoted_fixed (ht : t.FixedWidth) :
    Json.quoted (Stamp.fixed t) =
      '"' :: (Stamp.fixed t ++ ['"']) := by
  rw [Json.quoted, Json.opening,
    Stamp.flatMap_escape_fixed ht.2]
  rfl

/- The bytes of two instants compare as the instants do. -/
theorem utf8_text_lt_iff
    (ha : a.FixedWidth)
    (hb : b.FixedWidth) :
    utf8 a.text < utf8 b.text ↔ a.before b := by
  rw [utf8_lt_iff]
  change (String.ofList _).toList < (String.ofList _).toList ↔ _
  rw [String.toList_ofList, String.toList_ofList,
    quoted_fixed ha, quoted_fixed hb, List.cons_lt_cons_self,
    Stamp.fixed_append_lt_iff ha.1 hb.1 ha.2 hb.2]

/- Different instants have different bytes. -/
theorem utf8_text_inj
    (ha : a.FixedWidth)
    (hb : b.FixedWidth) :
    utf8 a.text = utf8 b.text ↔ a = b := by
  constructor
  · intro hBytes
    have hNotBefore : ¬ a.before b := by
      rw [← utf8_text_lt_iff ha hb, hBytes]
      exact List.lt_irrefl _
    have hNotAfter : ¬ b.before a := by
      rw [← utf8_text_lt_iff hb ha, hBytes]
      exact List.lt_irrefl _
    exact ((before_trichotomy a b).resolve_left
      hNotBefore).resolve_right hNotAfter
  · intro hSame
    rw [hSame]

/- Any supported instant whose year has four digits. -/
def Dated (t : Instant) : Prop :=
  t.Supported ∧ Stamp.InFourDigits t

instance (t : Instant) : Decidable t.Dated := by
  unfold Dated
  infer_instance

/- What a clock shows of such an instant has a fixed width. -/
theorem Dated.fixedWidth_settled
    (ht : t.Dated) : t.settled.FixedWidth := by
  refine ⟨proper_settled ht.1.1 ht.1.2, ?_⟩
  rw [Stamp.InFourDigits, clock_settled ht.1.2]
  exact ht.2

theorem FixedWidth.dated (ht : t.FixedWidth) : t.Dated :=
  ⟨⟨ht.1.1, ht.1.2.1⟩, ht.2⟩

/- A dated instant is stored as what a clock shows of it. -/
theorem encode_dated (ht : t.Dated) :
    encode (.moment t.utc) = .ok t.settled.text := by
  rw [← encode_moment ht.fixedWidth_settled]
  simp only [encode, Datum.encode, Datum.encodeChars,
    Stamp.momentText_settled ht.1.2]

end Instant

end Factbase
