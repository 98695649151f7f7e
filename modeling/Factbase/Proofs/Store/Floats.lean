import Factbase.Proofs.Data.Shapes
import Factbase.Proofs.Json.FloatRereading
import Factbase.Proofs.Store.Locality

/-
  Floating point numbers that are stored and read back.

  A store gives back the text that it was given, so what comes
  out of it is what the text of the number decodes as: a finite
  number always, and the same one if its numeral is short.

  Main declarations:
    * `decode_encode_double`
    * `Store.exists_get_set`
    * `Store.recalls_double`
-/

namespace Factbase

------------------------------------------------------------
-- Encoded Numbers
------------------------------------------------------------

/- A finite number has an encoding, and decodes as what is read. -/
theorem decode_encode_double
    {x : Binary64}
    (hFinite : x.isFinite = true) :
    encode (.double x) = .ok (.ofList (Layout.double.write x)) ∧
      decode .double (.ofList (Layout.double.write x)) =
        .ok x.reread := by
  constructor
  · have hEncode : Datum.encodeChars (.double x) =
        .ok (Layout.double.write x) :=
      encodeNumber_eq_ok_iff.mpr ⟨hFinite, rfl⟩
    rw [encode, Datum.encode, hEncode]
    rfl
  · rcases Json.read_write hFinite with ⟨_, hNumeral, hNumber⟩
    have hFront := hNumeral.2 [] Json.ends_nil
    rw [List.append_nil, hNumber] at hFront
    have hCode : x.reread.code ≤ Format.double.infinity := by
      have hReread := (Binary.rereadAs_reread hFinite).isFinite
      exact (of_decide_eq_true hReread).le
    refine decode_eq_ok_iff.mpr ⟨[], ?_, rfl⟩
    rw [String.toList_ofList]
    change Json.readFloat .double _ = _
    rw [Json.readFloat, hFront]
    change Except.ok (x.reread.convert .double, []) = _
    rw [Binary.convert_self (by decide) hCode]

------------------------------------------------------------
-- Values of a Pair
------------------------------------------------------------

namespace Row

/- Of rows that are all the same, the least is that one. -/
theorem least?_of_forall_eq
    {r : Row}
    {rows : List Row}
    (hSome : rows ≠ [])
    (hSame : ∀ q ∈ rows, q = r) : least? rows = some r := by
  rcases List.exists_cons_of_ne_nil hSome with ⟨q, rest, rfl⟩
  rw [List.forall_mem_cons] at hSame
  rcases hSame with ⟨rfl, hRest⟩
  rw [least?, Option.some.injEq]
  induction rest with
  | nil => rfl
  | cons p rest ih =>
      rw [List.forall_mem_cons] at hRest
      rw [List.foldl_cons, hRest.1, ite_self]
      exact ih (List.cons_ne_nil _ _) hRest.2

end Row

namespace Store

variable {s : Store}
variable {c : Connection}
variable {rows : List Row}
variable {d : Datum}
variable {text : String}
variable {subject predicate : String}

/-
  What is set is what is got, where the pair has no other value.
-/
theorem exists_get_set
    (hRows : c.content.rows s.collection = .ok rows)
    (hAlone : ∀ r ∈ rows, r.subject = subject →
      r.predicate = predicate → r.value = .text text)
    (hEncode : encode d = .ok text) :
    ∃ c', (s.set subject predicate d).on c = (.ok (), c') ∧
      (s.get? subject predicate).on c' =
        (.ok (some ⟨subject, predicate, text⟩), c') := by
  let t : Triple := ⟨subject, predicate, text⟩
  refine ⟨c.alter s.collection (Row.upsert t.row), ?_, ?_⟩
  · rw [on_set hRows, hEncode]
  · rw [on_get (Connection.rows_alter hRows _)]
    have hLeast : Row.least? ((Row.upsert t.row rows).filter
        fun r => r.subject = subject && r.predicate = predicate) =
          some t.row := by
      apply Row.least?_of_forall_eq
      · refine List.ne_nil_of_mem (a := t.row) ?_
        simp [t, Triple.row]
      · intro r hMember
        simp only [List.mem_filter, Row.mem_upsert_iff,
          Bool.and_eq_true, decide_eq_true_eq] at hMember
        rcases hMember with ⟨rfl | hOld, hSubject, hPredicate⟩
        · rfl
        · have hValue := hAlone r hOld hSubject hPredicate
          rcases r with ⟨rs, rp, rv⟩
          cases hSubject
          cases hPredicate
          cases hValue
          rfl
    rw [hLeast]
    rfl

/-
  Every finite number is written and read as a finite number of
  the same sign that is at most three numbers away.  It is the
  same number if its numeral has a significand of up to 53 bits
  and a power of ten of up to 22 places.  A store gives back the
  number that the text is read as, where the pair of subject and
  predicate has no other value.
-/
theorem recalls_double
    (x : Binary64)
    (hFinite : x.isFinite = true) :
    ∃ text y,
      encode (.double x) = .ok text ∧
      decode .double text = .ok y ∧
      x.RereadAs y ∧
      ∀ (s : Store) (c : Connection) (rows : List Row)
        (subject predicate : String),
        c.content.rows s.collection = .ok rows →
        (∀ r ∈ rows, r.subject = subject →
          r.predicate = predicate → r.value = .text text) →
        ∃ c' t,
          (s.set subject predicate (.double x)).on c =
            (.ok (), c') ∧
          (s.get? subject predicate).on c' = (.ok (some t), c') ∧
          t.read .double = .ok y := by
  rcases decode_encode_double hFinite with ⟨hEncode, hDecode⟩
  refine ⟨_, x.reread, hEncode, hDecode,
    Binary.rereadAs_reread hFinite, ?_⟩
  intro s c rows subject predicate hRows hAlone
  rcases exists_get_set hRows hAlone hEncode with
    ⟨c', hSet, hGet⟩
  exact ⟨c', _, hSet, hGet, hDecode⟩

/-
  An eighth comes back as it was.  The greatest number below two
  to the 53 does not: a zero is written behind it, so it is read
  as ten times itself by one tenth, which is rounded twice.
-/
theorem recalls_double_people :
    let eighth : Binary64 := ⟨false, 0x3fc0000000000000⟩
    let large : Binary64 := ⟨false, 0x433fffffffffffff⟩
    let s : Store := ⟨"people"⟩
    (∃ text c' t,
      encode (.double eighth) = .ok text ∧
      decode .double text = .ok eighth ∧
      (s.set "ann" "share" (.double eighth)).on
        (.fresh "people") = (.ok (), c') ∧
      (s.get? "ann" "share").on c' = (.ok (some t), c') ∧
      t.read .double = .ok eighth) ∧
    ∃ text, encode (.double large) = .ok text ∧
      decode .double text = .ok ⟨false, 0x433ffffffffffffe⟩ := by
  intro eighth large s
  have hRows : (Connection.fresh "people").content.rows
      s.collection = .ok [] :=
    Connection.rows_fresh (foldName_eq_self rfl)
  constructor
  · rcases recalls_double eighth (by decide) with
      ⟨text, y, hEncode, hDecode, hReread, hStore⟩
    have hSame : y = eighth := hReread.exact (by decide +kernel)
    rcases hStore s _ [] "ann" "share" hRows (by simp) with
      ⟨c', t, hSet, hGet, hRead⟩
    rw [hSame] at hDecode hRead
    exact ⟨text, c', t, hEncode, hDecode, hSet, hGet, hRead⟩
  · rcases recalls_double large (by decide) with
      ⟨text, y, hEncode, hDecode, hReread, _⟩
    have hScale : Json.scale (.ofNat large.numeral.digits)
        large.numeral.exponent 4 =
          some ⟨false, 0x433ffffffffffffe⟩ := by
      decide +kernel
    have hCode : y.code = 0x433ffffffffffffe := by
      have hBoth := hReread.scaled
      rw [hScale] at hBoth
      simpa using hBoth.symm
    have hSame : y = ⟨false, 0x433ffffffffffffe⟩ := by
      rcases y with ⟨negative, code⟩
      cases hReread.negative
      cases hCode
      rfl
    exact ⟨text, hEncode, hSame ▸ hDecode⟩

end Store

end Factbase
