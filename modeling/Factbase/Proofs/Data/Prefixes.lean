import Factbase.Data.Codec
import Factbase.Proofs.Json.Reading
import Factbase.Proofs.Json.Scalars

/-
  Starts of encoded strings.

  A string starts with another one exactly if its encoding
  starts with that of the other without the closing quote: every
  character is read back from its own form, so the forms of one
  string tell those of the other apart.  No other encoding
  starts with a quote.

  Main declarations:
    * `Json.opening_prefix_quoted_iff`
    * `Json.quoted_inj`
    * `Layout.unquoted_write`
    * `Datum.encodeChars_cases`
    * `encodePrefix_prefix_iff`
-/

namespace Factbase

------------------------------------------------------------
-- Written Strings
------------------------------------------------------------

namespace Json

/- Written characters are read back before what follows them. -/
theorem readCharsWithin_append
    (fuel : Nat)
    (cs rest : List Char) :
    readCharsWithin (fuel + cs.length)
        (cs.flatMap escape ++ rest) =
      (readCharsWithin fuel rest).map
        fun (ds, r) => (cs ++ ds, r) := by
  induction cs with
  | nil =>
      change readCharsWithin fuel rest = _
      cases readCharsWithin fuel rest <;> rfl
  | cons c cs ih =>
      rw [List.flatMap_cons, List.append_assoc, List.length_cons,
        ← Nat.add_assoc, readCharsWithin_escape, ih]
      cases readCharsWithin fuel rest <;> rfl

/-
  A written string starts as another one does exactly if the
  other one is a start of it.
-/
theorem opening_prefix_quoted_iff {start cs : List Char} :
    opening start <+: quoted cs ↔ start <+: cs := by
  constructor
  · rintro ⟨rest, hText⟩
    have hChars : start.flatMap escape ++ rest =
        cs.flatMap escape ++ ['"'] :=
      List.cons_injective hText
    -- both sides are read with as many rounds
    have hRead := readCharsWithin_append (cs.length + 1)
      start rest
    rw [hChars, readCharsWithin_escaped (by omega)] at hRead
    cases hRest : readCharsWithin (cs.length + 1) rest with
    | error flaw => simp [hRest, Except.map] at hRead
    | ok outcome =>
        simp only [hRest, Except.map, Except.ok.injEq,
          Prod.mk.injEq] at hRead
        exact ⟨outcome.1, hRead.1.symm⟩
  · rintro ⟨rest, rfl⟩
    refine ⟨rest.flatMap escape ++ ['"'], ?_⟩
    simp [opening, quoted]

------------------------------------------------------------
-- Other Values
------------------------------------------------------------

/- A text that starts as no string does. -/
def Unquoted (cs : List Char) : Prop :=
  ∃ c rest, cs = c :: rest ∧ isSpace c = false ∧ c ≠ '"'

theorem unquoted_of_isDigit
    {c : Char}
    (hDigit : c.isDigit = true)
    (rest : List Char) : Unquoted (c :: rest) := by
  refine ⟨c, rest, rfl, isSpace_of_isDigit hDigit, ?_⟩
  rintro rfl
  exact absurd hDigit (by decide)

theorem unquoted_minus (rest : List Char) :
    Unquoted ('-' :: rest) :=
  ⟨'-', rest, rfl, by decide, by decide⟩

/- What is not quoted starts as no prefix does. -/
theorem Unquoted.not_opening
    {cs : List Char}
    (hUnquoted : Unquoted cs)
    (start : List Char) : ¬ opening start <+: cs := by
  rcases hUnquoted with ⟨c, rest, rfl, _, hMark⟩
  rintro ⟨_, hText⟩
  exact hMark (List.cons_eq_cons.mp hText).1.symm

/- What is read as a string starts with a quote. -/
theorem Unquoted.readFront_ne_text
    {cs : List Char}
    (hUnquoted : Unquoted cs)
    (s : String)
    (r : List Char) :
    readFront cs ≠ .ok (.text s, r) := by
  rcases hUnquoted with ⟨c, rest, rfl, hSpace, hMark⟩
  rw [readFront, skipBlank_cons hSpace]
  -- the cases are the characters that a value can start with
  split
  case h_1 | h_6 | h_7 => simp
  case h_2 | h_3 | h_4 | h_8 => exact map_ne_front (by simp)
  case h_5 hText =>
    exact absurd (List.cons_eq_cons.mp hText).1 hMark
  case h_9 =>
    split_ifs
    · exact map_ne_front (by simp)
    · simp

/- A quoted text reads as itself. -/
theorem readAll_readText_quoted (cs : List Char) :
    readAll readText (quoted cs) = .ok (.ofList cs) := by
  have hFront := Doc.readFront_quoted [] cs
  rw [List.append_nil] at hFront
  rw [readAll, readText, hFront]
  rfl

/- Different texts have different encodings. -/
theorem quoted_inj {cs ds : List Char} :
    quoted cs = quoted ds ↔ cs = ds := by
  constructor
  · intro hSame
    have hRead := readAll_readText_quoted cs
    rw [hSame, readAll_readText_quoted, Except.ok.injEq,
      String.ofList_inj] at hRead
    exact hRead.symm
  · rintro rfl
    rfl

/- What is not quoted reads as no text. -/
theorem Unquoted.readAll_readText_ne
    {cs : List Char}
    (hUnquoted : Unquoted cs)
    (s : String) : readAll readText cs ≠ .ok s := by
  rw [readAll, readText]
  cases hFront : readFront cs with
  | error flaw => simp [bind, Except.bind]
  | ok outcome =>
      rcases outcome with ⟨front, r⟩
      cases front with
      | text s => exact absurd hFront (hUnquoted.readFront_ne_text s r)
      | _ => simp [bind, Except.bind]

end Json

------------------------------------------------------------
-- Written Numbers
------------------------------------------------------------

namespace Layout

/- Digits stay in front, or a zero comes before them. -/
theorem exists_place_digit
    (l : Layout)
    {ds : List Char}
    (hSome : ds ≠ [])
    (hDigits : ∀ c ∈ ds, c.isDigit = true)
    (exponent : Int) :
    ∃ c rest, l.place ds exponent = c :: rest ∧
      c.isDigit = true := by
  rcases List.exists_cons_of_ne_nil hSome with ⟨d, tail, rfl⟩
  have hDigit := hDigits d List.mem_cons_self
  by_cases hSmall : exponent < 0
  · rw [place, if_pos hSmall]
    exact ⟨'0', _, rfl, by decide⟩
  · rw [place, if_neg hSmall]
    simp only [List.take_succ_cons]
    split
    · split_ifs <;> exact ⟨d, _, rfl, hDigit⟩
    · exact ⟨d, _, rfl, hDigit⟩

/- A number in scientific form starts with a digit. -/
theorem exists_scientific_digit
    {ds : List Char}
    (hSome : ds ≠ [])
    (hDigits : ∀ c ∈ ds, c.isDigit = true)
    (exponent : Int) :
    ∃ c rest, scientific ds exponent = c :: rest ∧
      c.isDigit = true := by
  rcases ds with _ | ⟨d, _ | ⟨e, tail⟩⟩
  · exact absurd rfl hSome
  · exact ⟨d, _, rfl, hDigits d List.mem_cons_self⟩
  · exact ⟨d, _, rfl, hDigits d List.mem_cons_self⟩

/- So does one in the layout of its magnitude. -/
theorem exists_magnitude_digit
    {f : Format}
    (l : Layout)
    (x : Binary f) :
    ∃ c rest, l.magnitude x = c :: rest ∧ c.isDigit = true := by
  rw [magnitude]
  split_ifs
  · exact l.exists_place_digit (Digits.write_ne_nil _)
      (fun _ => Digits.isDigit_of_mem_write) _
  · exact exists_scientific_digit (Digits.write_ne_nil _)
      (fun _ => Digits.isDigit_of_mem_write) _

/- The written form of a finite number, but for its sign. -/
def unsigned
    {f : Format}
    (l : Layout)
    (x : Binary f) : List Char :=
  if x.isZero then l.place ['0'] 0 else l.magnitude x

/- So does one without its sign. -/
theorem exists_unsigned_digit
    {f : Format}
    (l : Layout)
    (x : Binary f) :
    ∃ c rest, l.unsigned x = c :: rest ∧ c.isDigit = true := by
  rw [unsigned]
  split_ifs
  · exact l.exists_place_digit (by simp) (by simp) 0
  · exact l.exists_magnitude_digit x

/- Before the digits of a finite number there is only its sign. -/
theorem write_of_isFinite
    {f : Format}
    (l : Layout)
    {x : Binary f}
    (hFinite : x.isFinite = true) :
    l.write x =
      (if x.negative then ['-'] else []) ++ l.unsigned x := by
  have hNumber : x.isNaN = false := by
    simp only [Binary.isFinite, Binary.isNaN,
      decide_eq_true_eq, decide_eq_false_iff_not] at *
    omega
  simp only [write, unsigned, hNumber, hFinite, Bool.not_true,
    Bool.false_eq_true, if_false]
  split_ifs <;> rfl

/- A finite number is written with a sign or a digit in front. -/
theorem unquoted_write
    {f : Format}
    (l : Layout)
    {x : Binary f}
    (hFinite : x.isFinite = true) : Json.Unquoted (l.write x) := by
  rcases l.exists_unsigned_digit x with ⟨c, rest, hText, hDigit⟩
  rw [l.write_of_isFinite hFinite, hText]
  split_ifs
  · exact Json.unquoted_minus _
  · exact Json.unquoted_of_isDigit hDigit rest

end Layout

------------------------------------------------------------
-- Encodings
------------------------------------------------------------

/- Only finite numbers are written. -/
theorem encodeNumber_eq_ok_iff
    {f : Format}
    {l : Layout}
    {x : Binary f}
    {cs : List Char} :
    encodeNumber l x = .ok cs ↔
      x.isFinite = true ∧ l.write x = cs := by
  rw [encodeNumber]
  split_ifs with hFinite <;> simp [hFinite]

namespace Datum

theorem unquoted_bracketed (parts : List (List Char)) :
    Json.Unquoted (Json.bracketed parts) :=
  ⟨'[', _, rfl, by decide, by decide⟩

theorem unquoted_braced (parts : List (List Char)) :
    Json.Unquoted (Json.braced parts) :=
  ⟨'{', _, rfl, by decide, by decide⟩

/- An integer starts with a digit or with its sign. -/
theorem unquoted_writeInt (n : Int) :
    Json.Unquoted (Digits.writeInt n) := by
  cases n with
  | ofNat n =>
      rcases Digits.exists_write_eq_cons n with
        ⟨d, tail, hWrite, hDigits⟩
      rw [Digits.writeInt, hWrite]
      exact Json.unquoted_of_isDigit
        (hDigits d List.mem_cons_self) tail
  | negSucc n => exact Json.unquoted_minus _

/- What wraps the outcome of its parts has its own front. -/
theorem unquoted_of_bind
    {α : Type}
    {parts : Except EncodeFault α}
    {wrap : α → List Char}
    {cs : List Char}
    (hEncode : (do .ok (wrap (← parts))) = Except.ok cs)
    (hWrap : ∀ x, Json.Unquoted (wrap x)) : Json.Unquoted cs := by
  cases parts with
  | error fault => cases hEncode
  | ok x =>
      cases hEncode
      exact hWrap x

/-
  An encoding is a written string, or it starts as none does.
  The recursion follows the encoder into optional values and
  records of one nameless part.
-/
theorem encodeChars_cases :
    ∀ (d : Datum) (cs : List Char), encodeChars d = .ok cs →
      (∃ s, cs = Json.quoted s) ∨ Json.Unquoted cs
  | .unit, _, rfl => Or.inr ⟨'n', _, rfl, by decide, by decide⟩
  | .none, _, rfl => Or.inr ⟨'n', _, rfl, by decide, by decide⟩
  | .bool true, _, rfl => Or.inr ⟨'t', _, rfl, by decide, by decide⟩
  | .bool false, _, rfl =>
      Or.inr ⟨'f', _, rfl, by decide, by decide⟩
  | .integer n, _, rfl => Or.inr (unquoted_writeInt n)
  | .double x, cs, hEncode => by
      rcases encodeNumber_eq_ok_iff.mp hEncode with ⟨hFinite, rfl⟩
      exact Or.inr (Layout.unquoted_write _ hFinite)
  | .single x, cs, hEncode => by
      rcases encodeNumber_eq_ok_iff.mp hEncode with ⟨hFinite, rfl⟩
      exact Or.inr (Layout.unquoted_write _ hFinite)
  | .char c, _, rfl => Or.inl ⟨_, rfl⟩
  | .text s, _, rfl => Or.inl ⟨_, rfl⟩
  | .choice variant, _, rfl => Or.inl ⟨_, rfl⟩
  | .moment z, _, rfl => Or.inl ⟨_, rfl⟩
  | .display s, _, rfl => Or.inl ⟨_, rfl⟩
  | .bytes bs, _, rfl => Or.inr (unquoted_bracketed _)
  | .some d, cs, hEncode => encodeChars_cases d cs hEncode
  | .wrapped d, cs, hEncode => encodeChars_cases d cs hEncode
  | .list ds, cs, hEncode =>
      Or.inr (unquoted_of_bind hEncode unquoted_bracketed)
  | .map entries, cs, hEncode =>
      Or.inr (unquoted_of_bind hEncode unquoted_braced)
  | .record fields, cs, hEncode =>
      Or.inr (unquoted_of_bind hEncode unquoted_braced)
  | .wrappedChoice variant d, cs, hEncode =>
      Or.inr (unquoted_of_bind hEncode fun _ => unquoted_braced _)
  | .listChoice variant ds, cs, hEncode =>
      Or.inr (unquoted_of_bind hEncode fun _ => unquoted_braced _)
  | .recordChoice variant fields, cs, hEncode =>
      Or.inr (unquoted_of_bind hEncode fun _ => unquoted_braced _)

end Datum

/- A text decodes as a text if it is one string. -/
theorem decode_text_eq_ok_iff {text s : String} :
    decode .text text = .ok s ↔
      Json.readAll Json.readText text.toList = .ok s := by
  change (Json.readAll Json.readText text.toList).mapError _ =
    .ok s ↔ _
  cases Json.readAll Json.readText text.toList <;>
    simp [Except.mapError]

/-
  An encoding starts with the form of a start exactly if it
  decodes as a string that has this start.
-/
theorem encodePrefix_prefix_iff
    {d : Datum}
    {text : String}
    (hEncode : encode d = .ok text)
    (start : String) :
    (encodePrefix start).toList <+: text.toList ↔
      ∃ s, decode .text text = .ok s ∧
        start.toList <+: s.toList := by
  have hChars : d.encodeChars = .ok text.toList := by
    rw [encode, Datum.encode] at hEncode
    cases hAnswer : d.encodeChars with
    | error fault =>
        simp [hAnswer, Except.map, Except.mapError] at hEncode
    | ok cs =>
        simp only [hAnswer, Except.map, Except.mapError,
          Except.ok.injEq] at hEncode
        rw [← hEncode, String.toList_ofList]
  simp only [encodePrefix, String.toList_ofList,
    decode_text_eq_ok_iff]
  rcases Datum.encodeChars_cases d _ hChars with
    ⟨s, hText⟩ | hUnquoted
  · rw [hText, Json.opening_prefix_quoted_iff,
      Json.readAll_readText_quoted]
    simp
  · constructor
    · intro hStart
      exact absurd hStart (hUnquoted.not_opening _)
    · rintro ⟨s, hRead, _⟩
      exact absurd hRead (hUnquoted.readAll_readText_ne s)

end Factbase
