import Factbase.Proofs.Data.Prefixes

/-
  What a caller reads who names a shape, against what values of
  any shape say.

  The reader of a scalar shape gives what a view of the value
  of any shape shows, for every text: a text that one of them
  refuses is refused by the other, or is a value of another
  shape.  Strings are the exception.  The value keeps the
  instant of a string that is a timestamp, and not its spelling.

  Key definitions include:
    * `Json.Follows`

  Main declarations:
    * `Json.Follows.reads_iff`
    * `decode_eq_ok_iff`
    * `decode_agrees_by_shape`
-/

namespace Factbase

------------------------------------------------------------
-- Views of Values
------------------------------------------------------------

namespace Value

/- The content of a null. -/
def asNull? : Value → Option Unit
  | .null => some ()
  | _ => none

/- The integer of an integer, whatever its size. -/
def asInt? (v : Value) : Option Int :=
  v.asInteger?.map Int64.toInt

/- What is no list and no map. -/
def IsScalar : Value → Prop
  | .list _ | .map _ => False
  | _ => True

/- Only nothing is seen as the unit. -/
theorem asNull?_eq_some_iff {v : Value} {x : Unit} :
    v.asNull? = some x ↔ v = .null := by
  cases v <;> simp [asNull?]

/- Only a truth value is seen as one. -/
theorem asBool?_eq_some_iff {v : Value} {b : Bool} :
    v.asBool? = some b ↔ v = .bool b := by
  cases v <;> simp [asBool?]

/- Only an integer is seen as one, and never a whole float. -/
theorem asInt?_eq_some_iff {v : Value} {n : Int} :
    v.asInt? = some n ↔
      ∃ m : Int64, m.toInt = n ∧ v = .integer m := by
  cases v <;> simp [asInt?, asInteger?, and_comm]

/-
  An integer is also seen as a float, which is the nearest one.
-/
theorem asFloat?_eq_some_iff {v : Value} {x : Binary64} :
    v.asFloat? = some x ↔
      v = .float x ∨
        ∃ n : Int64, v = .integer n ∧ Binary.ofInt n.toInt = x := by
  cases v <;> simp [asFloat?]

/- Only a timestamp is seen as one, and never a text. -/
theorem asTimestamp?_eq_some_iff {v : Value} {t : Instant} :
    v.asTimestamp? = some t ↔ v = .timestamp t := by
  cases v <;> simp [asTimestamp?]

section Origins

variable {α : Type}
variable {view : Value → Option α}

/- The value of a number is an integer or a float. -/
theorem ofNumber_cases (n : Json.Number) :
    (∃ m, ofNumber n = .integer m) ∨
      ∃ x, ofNumber n = .float x := by
  cases n with
  | natural n =>
      rw [ofNumber]
      split_ifs
      · exact .inl ⟨_, rfl⟩
      · exact .inr ⟨_, rfl⟩
  | negative n => exact .inl ⟨_, rfl⟩
  | float x => exact .inr ⟨_, rfl⟩

/- A view that sees no integer and no float sees no number. -/
theorem view_ofNumber
    (n : Json.Number)
    (hInteger : ∀ m, view (.integer m) = none)
    (hFloat : ∀ x, view (.float x) = none) :
    view (ofNumber n) = none := by
  rcases ofNumber_cases n with ⟨m, hValue⟩ | ⟨x, hValue⟩
  · rw [hValue]
    exact hInteger m
  · rw [hValue]
    exact hFloat x

/- The value of a string is a timestamp or the string. -/
theorem ofText_cases (s : String) :
    (∃ z, Stamp.relaxed s.toList = .ok z ∧
        ofText s = .timestamp z.instant) ∨
      ∃ fault, Stamp.relaxed s.toList = .error fault ∧
        ofText s = .text s := by
  rw [ofText]
  cases Stamp.relaxed s.toList with
  | ok z => exact .inl ⟨z, rfl, rfl⟩
  | error fault => exact .inr ⟨fault, rfl, rfl⟩

/- A view that sees no timestamp and no text sees no string. -/
theorem view_ofText
    (s : String)
    (hTimestamp : ∀ t, view (.timestamp t) = none)
    (hText : ∀ s, view (.text s) = none) :
    view (ofText s) = none := by
  rcases ofText_cases s with ⟨z, _, hValue⟩ | ⟨fault, _, hValue⟩
  · rw [hValue]
    exact hTimestamp _
  · rw [hValue]
    exact hText _

section Misses

variable (n : Json.Number)
variable (s : String)

@[simp] theorem asNull?_ofNumber : (ofNumber n).asNull? = none :=
  view_ofNumber n (fun _ => rfl) (fun _ => rfl)

@[simp] theorem asNull?_ofText : (ofText s).asNull? = none :=
  view_ofText s (fun _ => rfl) (fun _ => rfl)

@[simp] theorem asBool?_ofNumber : (ofNumber n).asBool? = none :=
  view_ofNumber n (fun _ => rfl) (fun _ => rfl)

@[simp] theorem asBool?_ofText : (ofText s).asBool? = none :=
  view_ofText s (fun _ => rfl) (fun _ => rfl)

@[simp] theorem asInt?_ofText : (ofText s).asInt? = none :=
  view_ofText s (fun _ => rfl) (fun _ => rfl)

@[simp] theorem asFloat?_ofText : (ofText s).asFloat? = none :=
  view_ofText s (fun _ => rfl) (fun _ => rfl)

@[simp] theorem asTimestamp?_ofNumber :
    (ofNumber n).asTimestamp? = none :=
  view_ofNumber n (fun _ => rfl) (fun _ => rfl)

end Misses

end Origins

end Value

namespace Json

------------------------------------------------------------
-- Readers that Follow a View
------------------------------------------------------------

variable {α : Type}
variable {reader : Reader α}
variable {view : Value → Option α}

/- A number at the front is in the range of its kind. -/
def Front.Fits : Front → Prop
  | .number n => n.Fits
  | _ => True

/-
  A reader gives what a view shows of the scalar at the front,
  and fails for all else.
-/
def Follows
    (reader : Reader α)
    (view : Value → Option α) : Prop :=
  ∀ cs x r, reader cs = .ok (x, r) ↔
    ∃ front v, readFront cs = .ok (front, r) ∧
      front.value? = some v ∧ view v = some x

/- It is enough to look at each front. -/
theorem follows_of_fronts
    {take : Front × List Char → Except Flaw (α × List Char)}
    (hReader : ∀ cs, reader cs = readFront cs >>= take)
    (hTake : ∀ front r x r', front.Fits →
      (take (front, r) = .ok (x, r') ↔
        r = r' ∧ ∃ v, front.value? = some v ∧ view v = some x)) :
    Follows reader view := by
  intro cs x r
  rw [hReader]
  cases hFront : readFront cs with
  | error flaw =>
      constructor
      · intro hRead
        cases hRead
      · rintro ⟨front, v, hOther, _⟩
        cases hOther
  | ok result =>
      rcases result with ⟨front, rest⟩
      have hFits : front.Fits := by
        cases front with
        | number n => exact fits_of_readFront hFront
        | _ => trivial
      refine (hTake front rest x r hFits).trans ?_
      constructor
      · rintro ⟨rfl, v, hScalar, hView⟩
        exact ⟨front, v, rfl, hScalar, hView⟩
      · rintro ⟨_, v, hSame, hScalar, hView⟩
        cases hSame
        exact ⟨rfl, v, hScalar, hView⟩

/-
  A reader that follows a view reads what the view shows of the
  value of any shape.
-/
theorem Follows.reads_iff
    (hFollows : Follows reader view)
    (hScalar : ∀ v x, view v = some x → v.IsScalar)
    (budget : Nat)
    {cs r : List Char}
    {x : α} :
    reader cs = .ok (x, r) ↔
      ∃ v, Value.read budget cs = .ok (v, r) ∧ view v = some x := by
  rw [hFollows]
  constructor
  · rintro ⟨front, v, hFront, hValue, hView⟩
    exact ⟨v, read_of_readFront budget hFront hValue, hView⟩
  · rintro ⟨v, hRead, hView⟩
    have hKind := hScalar v x hView
    rcases exists_front_of_read hRead
      (by rintro vs rfl; exact hKind)
      (by rintro entries rfl; exact hKind)
      with ⟨front, hFront, hValue⟩
    exact ⟨front, v, hFront, hValue, hView⟩

------------------------------------------------------------
-- Readers of Scalars
------------------------------------------------------------

open Value

/- Reading the unit goes along with reading a value. -/
theorem follows_readUnit : Follows readUnit asNull? := by
  refine follows_of_fronts (fun _ => rfl) ?_
  intro front r x r' _
  cases front with
  | null => simp [Front.value?, asNull?]
  | bool b => simp [Front.value?, asNull?]
  | _ => simp [Front.value?]

/- So does reading a truth value. -/
theorem follows_readBool : Follows readBool asBool? := by
  refine follows_of_fronts (fun _ => rfl) ?_
  intro front r x r' _
  cases front with
  | null => simp [Front.value?, asBool?]
  | bool b => simp [Front.value?, asBool?, and_comm]
  | _ => simp [Front.value?]

/- A string is read as a moment exactly if its value is one. -/
theorem follows_readMoment (budget : Nat) :
    Follows (Shape.instant.read budget) asTimestamp? := by
  refine follows_of_fronts
    (fun cs => map_bind _ (readFront cs) _) ?_
  intro front r x r' _
  cases front with
  | text s =>
      rcases ofText_cases s
        with ⟨z, hRead, hValue⟩ | ⟨fault, hRead, hValue⟩
      · simp [hRead, hValue, Front.value?, asTimestamp?,
          and_comm]
      · simp [hRead, hValue, Front.value?, asTimestamp?]
  | null => simp [Front.value?, asTimestamp?]
  | bool b => simp [Front.value?, asTimestamp?]
  | _ => simp [Front.value?]

/- The integers of the type are those of 64 bits with a sign. -/
theorem holds_i64_iff {n : Int} :
    IntType.i64.holds n = true ↔ -2 ^ 63 ≤ n ∧ n < 2 ^ 63 := by
  change (decide _ && decide _) = true ↔ _
  rw [Bool.and_eq_true, decide_eq_true_iff, decide_eq_true_iff]
  rfl

/- A natural number is an integer if 64 bits hold it. -/
theorem asInt?_natural (n : Nat) :
    (ofNumber (.natural n)).asInt? =
      if IntType.i64.holds n then some (n : Int) else none := by
  have hHolds : IntType.i64.holds n = true ↔ n < twoTo 63 := by
    rw [holds_i64_iff, twoTo_eq]
    omega
  rw [ofNumber]
  split_ifs with hBound hHeld hHeld
  · exact congrArg some (Int64.toInt_ofNat_of_lt hBound)
  · exact absurd (hHolds.mpr hBound) hHeld
  · exact absurd (hHolds.mp hHeld) hBound
  · rfl

/- A negative integer that is read as one keeps its value. -/
theorem toInt_negative
    {n : Nat}
    (hFits : (Number.negative n).Fits) :
    (Int64.ofInt (-n)).toInt = -n := by
  have hBound : n ≤ 2 ^ 63 := hFits.2
  exact Int64.toInt_ofInt_of_le (by omega) (by omega)

/- A number is read as an integer exactly if its value is one. -/
theorem follows_readInt : Follows (readInt .i64) asInt? := by
  refine follows_of_fronts (fun _ => rfl) ?_
  intro front r x r' hFits
  cases front with
  | number n =>
      cases n with
      | natural n =>
          cases hHolds : IntType.i64.holds n <;>
            simp [Front.value?, asInt?_natural, hHolds, and_comm]
      | negative n =>
          have hBound : n ≤ 2 ^ 63 := hFits.2
          have hHolds : IntType.i64.holds (-n) = true :=
            holds_i64_iff.mpr (by omega)
          have hView :
              (ofNumber (.negative n)).asInt? = some (-n : Int) :=
            congrArg some (toInt_negative hFits)
          simp [Front.value?, hHolds, hView, and_comm]
      | float x =>
          simp [Front.value?, ofNumber, asInt?, asInteger?]
  | null => simp [Front.value?, asInt?, asInteger?]
  | bool b => simp [Front.value?, asInt?, asInteger?]
  | _ => simp [Front.value?]

/- An integer is converted as its numeral would be. -/
theorem asFloat?_ofNumber
    {n : Number}
    (hFits : n.Fits) :
    (ofNumber n).asFloat? = some (n.toBinary .double) := by
  cases n with
  | natural n =>
      rw [ofNumber]
      split_ifs with hBound
      · rw [asFloat?, Int64.toInt_ofNat_of_lt hBound]
        rfl
      · rfl
  | negative n =>
      rw [ofNumber, asFloat?, toInt_negative hFits]
      rfl
  | float x =>
      rw [ofNumber, asFloat?, Number.toBinary,
        Binary.convert_self (by decide) hFits]

/- Every number that has a value is read as a float. -/
theorem follows_readFloat :
    Follows (readFloat .double) asFloat? := by
  refine follows_of_fronts (fun _ => rfl) ?_
  intro front r x r' hFits
  cases front with
  | number n =>
      simp [Front.value?, asFloat?_ofNumber hFits, and_comm]
  | null => simp [Front.value?, asFloat?]
  | bool b => simp [Front.value?, asFloat?]
  | _ => simp [Front.value?]

end Json

------------------------------------------------------------
-- Decoding
------------------------------------------------------------

variable {α : Type}
variable {s : Shape α}
variable {text : String}

/- A text decodes if only blanks follow what is read first. -/
theorem decode_eq_ok_iff {x : α} :
    decode s text = .ok x ↔
      ∃ r, s.read Json.deepest text.toList = .ok (x, r) ∧
        Json.skipBlank r = [] := by
  rw [decode, Json.readAll]
  cases s.read Json.deepest text.toList with
  | error flaw =>
      constructor
      · intro hDecode
        cases hDecode
      · rintro ⟨r, hRead, _⟩
        cases hRead
  | ok result =>
      rcases result with ⟨y, r⟩
      simp only [bind, Except.bind]
      cases hRest : Json.skipBlank r with
      | nil => simp [Except.mapError, hRest]
      | cons c cs => simp [Except.mapError, hRest]

/- A shape whose reader follows a view decodes what it shows. -/
theorem decode_iff_of_follows
    {view : Value → Option α}
    (hFollows : Json.Follows (s.read Json.deepest) view)
    (hScalar : ∀ v x, view v = some x → v.IsScalar)
    {x : α} :
    decode s text = .ok x ↔
      ∃ v, decode .value text = .ok v ∧ view v = some x := by
  rw [decode_eq_ok_iff]
  constructor
  · rintro ⟨r, hRead, hRest⟩
    rcases (hFollows.reads_iff hScalar Json.deepest).mp hRead
      with ⟨v, hValue, hView⟩
    exact ⟨v, decode_eq_ok_iff.mpr ⟨r, hValue, hRest⟩, hView⟩
  · rintro ⟨v, hDecode, hView⟩
    rcases decode_eq_ok_iff.mp hDecode with ⟨r, hValue, hRest⟩
    exact ⟨r, (hFollows.reads_iff hScalar Json.deepest).mpr
      ⟨v, hValue, hView⟩, hRest⟩

/- The texts of integers are those whose value is an integer. -/
theorem decode_int_iff {n : Int} :
    decode (.int .i64) text = .ok n ↔
      ∃ m : Int64, m.toInt = n ∧
        decode .value text = .ok (.integer m) := by
  rw [decode_iff_of_follows Json.follows_readInt]
  · simp only [Value.asInt?_eq_some_iff]
    constructor
    · rintro ⟨v, hDecode, m, hInt, rfl⟩
      exact ⟨m, hInt, hDecode⟩
    · rintro ⟨m, hInt, hDecode⟩
      exact ⟨_, hDecode, m, hInt, rfl⟩
  · intro v n hView
    rcases Value.asInt?_eq_some_iff.mp hView with ⟨m, _, rfl⟩
    trivial

theorem decode_bool_iff {b : Bool} :
    decode .bool text = .ok b ↔
      decode .value text = .ok (.bool b) := by
  rw [decode_iff_of_follows Json.follows_readBool]
  · simp only [Value.asBool?_eq_some_iff, exists_eq_right]
  · intro v b hView
    rw [Value.asBool?_eq_some_iff.mp hView]
    trivial

theorem decode_unit_iff :
    decode .unit text = .ok () ↔
      decode .value text = .ok .null := by
  rw [decode_iff_of_follows Json.follows_readUnit]
  · simp only [Value.asNull?_eq_some_iff, exists_eq_right]
  · intro v x hView
    rw [Value.asNull?_eq_some_iff.mp hView]
    trivial

/- The texts of instants are those whose value is a timestamp. -/
theorem decode_instant_iff {t : Instant} :
    decode .instant text = .ok t ↔
      decode .value text = .ok (.timestamp t) := by
  rw [decode_iff_of_follows (Json.follows_readMoment _)]
  · simp only [Value.asTimestamp?_eq_some_iff, exists_eq_right]
  · intro v t hView
    rw [Value.asTimestamp?_eq_some_iff.mp hView]
    trivial

/-
  The texts of floats are those whose value is a float or an
  integer, which counts as the nearest float.
-/
theorem decode_double_iff {x : Binary64} :
    decode .double text = .ok x ↔
      decode .value text = .ok (.float x) ∨
        ∃ n : Int64, decode .value text = .ok (.integer n) ∧
          Binary.ofInt n.toInt = x := by
  rw [decode_iff_of_follows Json.follows_readFloat]
  · simp only [Value.asFloat?_eq_some_iff]
    constructor
    · rintro ⟨v, hDecode, rfl | ⟨n, rfl, hInt⟩⟩
      · exact .inl hDecode
      · exact .inr ⟨n, hDecode, hInt⟩
    · rintro (hDecode | ⟨n, hDecode, hInt⟩)
      · exact ⟨_, hDecode, .inl rfl⟩
      · exact ⟨_, hDecode, .inr ⟨n, rfl, hInt⟩⟩
  · intro v x hView
    rcases Value.asFloat?_eq_some_iff.mp hView
      with rfl | ⟨n, rfl, _⟩ <;> trivial

------------------------------------------------------------
-- Strings
------------------------------------------------------------

/- A text is read where a document starts with a string. -/
theorem Json.readText_eq_ok_iff
    {cs r : List Char}
    {s : String} :
    Json.readText cs = .ok (s, r) ↔
      Json.readFront cs = .ok (.text s, r) := by
  rw [readText]
  cases hFront : readFront cs with
  | error flaw => simp [bind, Except.bind]
  | ok result =>
      rcases result with ⟨front, rest⟩
      cases front <;> simp [bind, Except.bind]

/- A string decodes as the value of that string. -/
theorem decode_value_of_text
    {s : String}
    (hDecode : decode .text text = .ok s) :
    decode .value text = .ok (Value.ofText s) := by
  rcases decode_eq_ok_iff.mp hDecode with ⟨r, hRead, hRest⟩
  exact decode_eq_ok_iff.mpr
    ⟨r, Json.read_of_readFront Json.deepest
      (Json.readText_eq_ok_iff.mp hRead) rfl, hRest⟩

/- A text or a timestamp is the value of a string. -/
theorem exists_decode_text
    {v : Value}
    (hDecode : decode .value text = .ok v)
    (hKind : (∃ s, v = .text s) ∨ ∃ t, v = .timestamp t) :
    ∃ s, decode .text text = .ok s ∧ v = Value.ofText s := by
  rcases decode_eq_ok_iff.mp hDecode with ⟨r, hRead, hRest⟩
  rcases Json.exists_front_of_read hRead
    (by rintro vs rfl; simp at hKind)
    (by rintro entries rfl; simp at hKind)
    with ⟨front, hFront, hScalar⟩
  cases front with
  | text s =>
      cases hScalar
      exact ⟨s, decode_eq_ok_iff.mpr
        ⟨r, Json.readText_eq_ok_iff.mpr hFront, hRest⟩, rfl⟩
  | number n =>
      cases hScalar
      rcases Value.ofNumber_cases n
        with ⟨m, hValue⟩ | ⟨x, hValue⟩ <;>
        simp [hValue] at hKind
  | null | bool b =>
      cases hScalar
      simp at hKind
  | list | object => cases hScalar

------------------------------------------------------------
-- Agreement
------------------------------------------------------------

/-
  For every text the readers of the scalar shapes agree with
  the reader of values.  An integer also reads as the nearest
  float.  A string reads as the timestamp that is read in it,
  if there is one, and as a text else; from the timestamp only
  some string with that reading is known.
-/
theorem decode_agrees_by_shape (text : String) :
    (∀ n : Int, decode (.int .i64) text = .ok n ↔
      ∃ m : Int64, m.toInt = n ∧
        decode .value text = .ok (.integer m)) ∧
    (∀ b, decode .bool text = .ok b ↔
      decode .value text = .ok (.bool b)) ∧
    (decode .unit text = .ok () ↔
      decode .value text = .ok .null) ∧
    (∀ t, decode .instant text = .ok t ↔
      decode .value text = .ok (.timestamp t)) ∧
    (∀ x, decode .double text = .ok x ↔
      decode .value text = .ok (.float x) ∨
        ∃ n : Int64, decode .value text = .ok (.integer n) ∧
          Binary.ofInt n.toInt = x) ∧
    (∀ s, decode .text text = .ok s →
      (∃ z, Stamp.relaxed s.toList = .ok z ∧
          decode .value text = .ok (.timestamp z.instant)) ∨
        ∃ fault, Stamp.relaxed s.toList = .error fault ∧
          decode .value text = .ok (.text s)) ∧
    (∀ s, decode .value text = .ok (.text s) →
      decode .text text = .ok s ∧
        ∃ fault, Stamp.relaxed s.toList = .error fault) ∧
    ∀ t, decode .value text = .ok (.timestamp t) →
      ∃ s z, decode .text text = .ok s ∧
        Stamp.relaxed s.toList = .ok z ∧ z.instant = t := by
  refine ⟨fun n => decode_int_iff, fun b => decode_bool_iff,
    decode_unit_iff, fun t => decode_instant_iff,
    fun x => decode_double_iff, ?_, ?_, ?_⟩
  · intro s hDecode
    have hValue := decode_value_of_text hDecode
    rcases Value.ofText_cases s
      with ⟨z, hRead, hText⟩ | ⟨fault, hRead, hText⟩
    · exact .inl ⟨z, hRead, hText ▸ hValue⟩
    · exact .inr ⟨fault, hRead, hText ▸ hValue⟩
  · intro s hDecode
    rcases exists_decode_text hDecode (.inl ⟨s, rfl⟩)
      with ⟨u, hText, hValue⟩
    rcases Value.ofText_cases u
      with ⟨z, _, hOther⟩ | ⟨fault, hRead, hSame⟩
    · rw [hOther] at hValue
      cases hValue
    · rw [hSame] at hValue
      cases hValue
      exact ⟨hText, fault, hRead⟩
  · intro t hDecode
    rcases exists_decode_text hDecode (.inr ⟨t, rfl⟩)
      with ⟨u, hText, hValue⟩
    rcases Value.ofText_cases u
      with ⟨z, hRead, hSame⟩ | ⟨fault, _, hOther⟩
    · rw [hSame] at hValue
      cases hValue
      exact ⟨u, z, hText, hRead, rfl⟩
    · rw [hOther] at hValue
      cases hValue

/-
  A timestamp does not tell its spelling.  Another string with
  the same reading is not what the text decodes as.
-/
theorem decode_text_ne_other_spelling :
    let text := "\"2019-01-03T12:00:00Z\""
    let s := "2019-01-03T12:00:00+00:00"
    ¬ (decode .text text = .ok s ↔
      (∃ z, Stamp.relaxed s.toList = .ok z ∧
          decode .value text = .ok (.timestamp z.instant)) ∨
        ∃ fault, Stamp.relaxed s.toList = .error fault ∧
          decode .value text = .ok (.text s)) := by
  intro text s hSame
  have hQuoted : text.toList =
      Json.quoted "2019-01-03T12:00:00Z".toList := by
    decide
  have hOwn := Json.readAll_readText_quoted
    "2019-01-03T12:00:00Z".toList
  rw [← hQuoted, ← decode_text_eq_ok_iff, String.ofList_toList]
    at hOwn
  have hValue : decode .value text =
      .ok (.timestamp ⟨1546516800, 0⟩) :=
    decode_value_of_text hOwn
  have hRead : Stamp.relaxed s.toList =
      .ok ⟨⟨1546516800, 0⟩, 0⟩ := by
    decide +kernel
  have hOther := hSame.mpr (.inl ⟨_, hRead, hValue⟩)
  rw [hOwn, Except.ok.injEq] at hOther
  exact absurd hOther (by decide)

end Factbase
