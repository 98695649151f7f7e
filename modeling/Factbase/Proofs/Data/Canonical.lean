import Factbase.Data.Codec
import Factbase.Proofs.Json.Document
import Mathlib.Tactic.SplitIfs

/-
  What the encoding of a datum is.

  The encoder goes through a datum once, checks numbers and keys
  as it comes upon them, and rewrites texts that are timestamps.
  Here these are three things apart: the visits that it makes in
  order, the datum with its timestamps rewritten, and the plain
  JSON of a datum.  The encoding is the plain JSON of the
  rewritten datum, unless a visit finds a fault; then the first
  one decides.

  Main declarations:
    * `Datum.visits`
    * `Datum.Encodable`
    * `Datum.canonical`
    * `Datum.doc`
    * `Datum.encodeChars_eq`
    * `encode_eq_canonical_json`
-/

namespace Factbase

------------------------------------------------------------
-- Faults
------------------------------------------------------------

/- What a number that is not finite is called. -/
def Binary.outlierName
    {f : Format}
    (x : Binary f) : String :=
  if x.isNaN then "NaN"
  else if x.negative then "-inf"
  else "inf"

def numberFault?
    {f : Format}
    (x : Binary f) : Option EncodeFault :=
  if x.isFinite then none else some (.notFinite x.outlierName)

namespace Datum

/- The fault of a datum that cannot be the key of an entry. -/
def keyFault? : Datum → Option EncodeFault
  | .bool _ => Option.none
  | .integer _ => Option.none
  | .double x => numberFault? x
  | .single x => numberFault? x
  | .char _ => Option.none
  | .text _ => Option.none
  | .some d => keyFault? d
  | .wrapped d => keyFault? d
  | .choice _ => Option.none
  | .moment _ => Option.none
  | .display _ => Option.none
  | _ => Option.some .keyNotString

/- What the encoder comes upon: a value, or the key of an entry. -/
inductive Visit where
  | value (d : Datum)
  | key (k : Datum)

/- What is wrong with a value or a key, apart from its parts. -/
def Visit.fault? : Visit → Option EncodeFault
  | .value (.double x) => numberFault? x
  | .value (.single x) => numberFault? x
  | .value _ => Option.none
  | .key k => k.keyFault?

mutual

/- The values and keys of a datum in the order of encoding. -/
def visits : Datum → List Visit
  | .some d => .value (.some d) :: visits d
  | .wrapped d => .value (.wrapped d) :: visits d
  | .wrappedChoice variant d =>
      .value (.wrappedChoice variant d) :: visits d
  | .list ds => .value (.list ds) :: visitsOfItems ds
  | .listChoice variant ds =>
      .value (.listChoice variant ds) :: visitsOfItems ds
  | .map entries => .value (.map entries) :: visitsOfEntries entries
  | .record fields => .value (.record fields) :: visitsOfFields fields
  | .recordChoice variant fields =>
      .value (.recordChoice variant fields) :: visitsOfFields fields
  | d => [.value d]

/- The values and keys of items. -/
def visitsOfItems : List Datum → List Visit
  | [] => []
  | d :: ds => visits d ++ visitsOfItems ds

/- The values and keys of entries, each key before its value. -/
def visitsOfEntries : List (Datum × Datum) → List Visit
  | [] => []
  | (k, d) :: entries =>
      .key k :: (visits d ++ visitsOfEntries entries)

/- The values and keys of the parts that are there. -/
def visitsOfFields : List (String × Option Datum) → List Visit
  | [] => []
  | (_, Option.none) :: fields => visitsOfFields fields
  | (_, Option.some d) :: fields =>
      visits d ++ visitsOfFields fields

end

/- The fault that the encoder comes upon first. -/
def firstFault? (visits : List Visit) : Option EncodeFault :=
  visits.findSome? Visit.fault?

------------------------------------------------------------
-- Data That Can Be Encoded
------------------------------------------------------------

/- A datum is no number that is not finite. -/
def IsFinite : Datum → Prop
  | .double x => x.isFinite = true
  | .single x => x.isFinite = true
  | _ => True

/- A datum that can be the key of an entry. -/
inductive IsKey : Datum → Prop where
  | bool (b : Bool) : IsKey (.bool b)
  | integer (n : Int) : IsKey (.integer n)
  | double (x : Binary64) (hFinite : x.isFinite = true) :
      IsKey (.double x)
  | single (x : Binary32) (hFinite : x.isFinite = true) :
      IsKey (.single x)
  | char (c : Char) : IsKey (.char c)
  | text (s : String) : IsKey (.text s)
  | choice (variant : String) : IsKey (.choice variant)
  | moment (z : Zoned) : IsKey (.moment z)
  | display (s : String) : IsKey (.display s)
  | some {d : Datum} (hKey : IsKey d) : IsKey (.some d)
  | wrapped {d : Datum} (hKey : IsKey d) : IsKey (.wrapped d)

/-
  All numbers of a datum are finite, wherever they stand, and
  all its keys can be keys.
-/
def Encodable (d : Datum) : Prop :=
  (∀ x, .value x ∈ d.visits → x.IsFinite) ∧
    ∀ k, .key k ∈ d.visits → k.IsKey

------------------------------------------------------------
-- Rewriting
------------------------------------------------------------

mutual

/-
  A datum with those of its texts rewritten that it hands over
  as something to show: timestamps get their canonical form.
-/
def canonical : Datum → Datum
  | .some d => .some (canonical d)
  | .wrapped d => .wrapped (canonical d)
  | .wrappedChoice variant d => .wrappedChoice variant (canonical d)
  | .list ds => .list (canonicalItems ds)
  | .listChoice variant ds => .listChoice variant (canonicalItems ds)
  | .map entries => .map (canonicalEntries entries)
  | .record fields => .record (canonicalFields fields)
  | .recordChoice variant fields =>
      .recordChoice variant (canonicalFields fields)
  | .moment z => .display (.ofList (canonicalText (Stamp.brief z)))
  | .display s => .display (.ofList (canonicalText s.toList))
  | d => d

/- Items, rewritten. -/
def canonicalItems : List Datum → List Datum
  | [] => []
  | d :: ds => canonical d :: canonicalItems ds

/- Entries, rewritten in their keys and values. -/
def canonicalEntries : List (Datum × Datum) → List (Datum × Datum)
  | [] => []
  | (k, d) :: entries =>
      (canonical k, canonical d) :: canonicalEntries entries

/- The parts of a record, rewritten. -/
def canonicalFields :
    List (String × Option Datum) → List (String × Option Datum)
  | [] => []
  | (name, Option.none) :: fields =>
      (name, Option.none) :: canonicalFields fields
  | (name, Option.some d) :: fields =>
      (name, Option.some (canonical d)) :: canonicalFields fields

end

------------------------------------------------------------
-- Plain JSON
------------------------------------------------------------

/- The characters of a key; what is no key has none. -/
def keyChars : Datum → List Char
  | .bool b => boolText b
  | .integer n => Digits.writeInt n
  | .double x => Layout.double.write x
  | .single x => Layout.single.write x
  | .char c => [c]
  | .text s => s.toList
  | .some d => keyChars d
  | .wrapped d => keyChars d
  | .choice variant => variant.toList
  | .moment z => Stamp.brief z
  | .display s => s.toList
  | _ => []

mutual

/- The plain JSON of a datum, without any check. -/
def doc : Datum → Json.Doc
  | .unit => .null
  | .bool b => .bool b
  | .integer n => .number (Digits.writeInt n)
  | .double x => .number (Layout.double.write x)
  | .single x => .number (Layout.single.write x)
  | .char c => .text [c]
  | .text s => .text s.toList
  | .bytes bs =>
      .list (bs.map fun b => .number (Digits.write b.toNat))
  | .none => .null
  | .some d => doc d
  | .wrapped d => doc d
  | .choice variant => .text variant.toList
  | .wrappedChoice variant d => .object [(variant.toList, doc d)]
  | .list ds => .list (docItems ds)
  | .listChoice variant ds =>
      .object [(variant.toList, .list (docItems ds))]
  | .map entries => .object (docEntries entries)
  | .record fields => .object (docFields fields)
  | .recordChoice variant fields =>
      .object [(variant.toList, .object (docFields fields))]
  | .moment z => .text (Stamp.brief z)
  | .display s => .text s.toList

/- The plain JSON of items. -/
def docItems : List Datum → List Json.Doc
  | [] => []
  | d :: ds => doc d :: docItems ds

/- The plain JSON of entries. -/
def docEntries :
    List (Datum × Datum) → List (List Char × Json.Doc)
  | [] => []
  | (k, d) :: entries => (keyChars k, doc d) :: docEntries entries

/- The plain JSON of the parts of a record that are there. -/
def docFields :
    List (String × Option Datum) → List (List Char × Json.Doc)
  | [] => []
  | (_, Option.none) :: fields => docFields fields
  | (name, Option.some d) :: fields =>
      (name.toList, doc d) :: docFields fields

end

end Datum

------------------------------------------------------------
-- Outcomes
------------------------------------------------------------

/- A result, unless there is a fault. -/
def outcome
    {α : Type}
    (fault : Option EncodeFault)
    (x : α) : Except EncodeFault α :=
  match fault with
  | none => .ok x
  | some e => .error e

section Outcomes

variable {α β : Type}
variable {fault other : Option EncodeFault}

theorem map_outcome (g : α → β) (x : α) :
    (outcome fault x).map g = outcome fault (g x) := by
  cases fault <;> rfl

theorem outcome_bind_ok (g : α → β) (x : α) :
    (outcome fault x >>= fun a => Except.ok (g a)) =
      outcome fault (g x) := by
  cases fault <;> rfl

/- Of two results in turn, the fault of the first one decides. -/
theorem outcome_bind
    {x : α}
    {y : β}
    {next : α → Except EncodeFault β}
    (hNext : next x = outcome other y) :
    (outcome fault x >>= next) = outcome (fault.or other) y := by
  cases fault with
  | none => exact hNext
  | some e => rfl

end Outcomes

------------------------------------------------------------
-- Encoding of Scalars and Keys
------------------------------------------------------------

/- A number that is not finite is named in the fault. -/
theorem write_plain_of_not_finite
    {f : Format}
    {x : Binary f}
    (hFinite : x.isFinite = false) :
    String.ofList (Layout.plain.write x) = x.outlierName := by
  cases hNaN : x.isNaN with
  | true => simp [Layout.write, Binary.outlierName, hNaN]
  | false =>
      cases hNegative : x.negative <;>
        simp [Layout.write, Binary.outlierName, hNaN, hFinite,
          hNegative]

/- A number is written unless it is not finite. -/
theorem encodeNumber_eq
    {f : Format}
    (l : Layout)
    (x : Binary f) :
    encodeNumber l x = outcome (numberFault? x) (l.write x) := by
  rw [encodeNumber, numberFault?]
  split_ifs with hFinite
  · rfl
  · rw [write_plain_of_not_finite (by simpa using hFinite)]
    rfl

/- Finite numbers are those without a fault. -/
theorem numberFault?_eq_none_iff
    {f : Format}
    {x : Binary f} :
    numberFault? x = none ↔ x.isFinite = true := by
  rw [numberFault?]
  split_ifs with hFinite <;> simp [hFinite]

namespace Datum

/- A key is the string of its characters, or it has a fault. -/
theorem encodeKey_eq (k : Datum) :
    encodeKey k =
      outcome k.keyFault? (Json.quoted k.canonical.keyChars) := by
  induction k using encodeKey.induct with
  | case1 b => rfl
  | case2 n => rfl
  | case3 x => rw [encodeKey, encodeNumber_eq, map_outcome]; rfl
  | case4 x => rw [encodeKey, encodeNumber_eq, map_outcome]; rfl
  | case5 c => rfl
  | case6 s => rfl
  | case7 d ih => exact ih
  | case8 d ih => exact ih
  | case9 variant => rfl
  | case10 z =>
      simp [encodeKey, keyFault?, canonical, keyChars, outcome,
        momentText]
  | case11 s =>
      simp [encodeKey, keyFault?, canonical, keyChars, outcome]
  | case12 d =>
      cases d <;> simp_all [encodeKey, keyFault?, outcome]

/- Keys are those data that make no fault as a key. -/
theorem keyFault?_eq_none_iff {k : Datum} :
    k.keyFault? = Option.none ↔ k.IsKey := by
  constructor
  · intro hFault
    induction k using keyFault?.induct with
    | case1 b => exact .bool b
    | case2 n => exact .integer n
    | case3 x => exact .double x (numberFault?_eq_none_iff.mp hFault)
    | case4 x => exact .single x (numberFault?_eq_none_iff.mp hFault)
    | case5 c => exact .char c
    | case6 s => exact .text s
    | case7 d ih => exact .some (ih hFault)
    | case8 d ih => exact .wrapped (ih hFault)
    | case9 variant => exact .choice variant
    | case10 z => exact .moment z
    | case11 s => exact .display s
    | case12 d => cases d <;> simp_all [keyFault?]
  · intro hKey
    induction hKey with
    | double x hFinite => exact numberFault?_eq_none_iff.mpr hFinite
    | single x hFinite => exact numberFault?_eq_none_iff.mpr hFinite
    | some _ ih => exact ih
    | wrapped _ ih => exact ih
    | _ => rfl

------------------------------------------------------------
-- Encoding
------------------------------------------------------------

/-
  The first fault of two runs of visits is in the first one, if
  that has any.
-/
theorem firstFault?_append (xs ys : List Visit) :
    firstFault? (xs ++ ys) =
      (firstFault? xs).or (firstFault? ys) :=
  List.findSome?_append

theorem firstFault?_cons (v : Visit) (vs : List Visit) :
    firstFault? (v :: vs) = v.fault?.or (firstFault? vs) := by
  rw [firstFault?, List.findSome?_cons]
  cases v.fault? <;> rfl

theorem firstFault?_leaf (d : Datum) :
    firstFault? [.value d] = (Visit.value d).fault? := by
  rw [firstFault?_cons]
  exact Option.or_none

/- A value that is no number has no fault besides its parts. -/
theorem firstFault?_parts
    {d : Datum}
    (hPlain : (Visit.value d).fault? = Option.none)
    (vs : List Visit) :
    firstFault? (.value d :: vs) = firstFault? vs := by
  rw [firstFault?_cons, hPlain]
  exact Option.none_or

mutual

/-
  The encoding of a datum is the plain JSON of the rewritten
  datum, unless a visit finds a fault.  The induction follows
  the encoder.
-/
theorem encodeChars_eq : ∀ d : Datum,
    encodeChars d =
      outcome (firstFault? d.visits) d.canonical.doc.write
  | .unit => rfl
  | .bool b => rfl
  | .integer n => rfl
  | .double x => by
      rw [encodeChars, encodeNumber_eq, visits, firstFault?_leaf]
      · rfl
      all_goals simp
  | .single x => by
      rw [encodeChars, encodeNumber_eq, visits, firstFault?_leaf]
      · rfl
      all_goals simp
  | .char c => rfl
  | .text s => rfl
  | .bytes bs => by
      rw [encodeChars, visits, firstFault?_leaf]
      · simp [canonical, doc, Json.Doc.write,
          Json.Doc.writeItems_eq_map, Function.comp_def,
          Visit.fault?, outcome]
      all_goals simp
  | .none => rfl
  | .some d => encodeChars_eq d
  | .wrapped d => encodeChars_eq d
  | .choice variant => rfl
  | .wrappedChoice variant d => by
      rw [encodeChars, encodeChars_eq d, outcome_bind_ok, visits,
        firstFault?_parts rfl]
      rfl
  | .list ds => by
      rw [encodeChars, encodeItems_eq ds, outcome_bind_ok, visits,
        firstFault?_parts rfl]
      rfl
  | .listChoice variant ds => by
      rw [encodeChars, encodeItems_eq ds, outcome_bind_ok, visits,
        firstFault?_parts rfl]
      rfl
  | .map entries => by
      rw [encodeChars, encodeEntries_eq entries, outcome_bind_ok,
        visits, firstFault?_parts rfl]
      rfl
  | .record fields => by
      rw [encodeChars, encodeFields_eq fields, outcome_bind_ok,
        visits, firstFault?_parts rfl]
      rfl
  | .recordChoice variant fields => by
      rw [encodeChars, encodeFields_eq fields, outcome_bind_ok,
        visits, firstFault?_parts rfl]
      rfl
  | .moment z => by
      simp [encodeChars, momentText, visits, firstFault?_leaf,
        Visit.fault?, outcome, canonical, doc, Json.Doc.write]
  | .display s => by
      simp [encodeChars, visits, firstFault?_leaf, Visit.fault?,
        outcome, canonical, doc, Json.Doc.write]

/- The same of items, where the first fault ends the writing. -/
theorem encodeItems_eq : ∀ ds : List Datum,
    encodeItems ds =
      outcome (firstFault? (visitsOfItems ds))
        (Json.Doc.writeItems (docItems (canonicalItems ds)))
  | [] => rfl
  | d :: ds => by
      rw [encodeItems, encodeChars_eq d, encodeItems_eq ds,
        visitsOfItems, firstFault?_append]
      exact outcome_bind (outcome_bind_ok _ _)

/- The same of entries, each with its key first. -/
theorem encodeEntries_eq : ∀ entries : List (Datum × Datum),
    encodeEntries entries =
      outcome (firstFault? (visitsOfEntries entries))
        (Json.Doc.writeMembers
          (docEntries (canonicalEntries entries)))
  | [] => rfl
  | (k, d) :: entries => by
      rw [encodeEntries, encodeKey_eq k, encodeChars_eq d,
        encodeEntries_eq entries, visitsOfEntries,
        firstFault?_cons, firstFault?_append]
      exact outcome_bind (outcome_bind (outcome_bind_ok _ _))

/-
  The same of fields, of which the skipped ones are not visited.
-/
theorem encodeFields_eq :
    ∀ fields : List (String × Option Datum),
      encodeFields fields =
        outcome (firstFault? (visitsOfFields fields))
          (Json.Doc.writeMembers
            (docFields (canonicalFields fields)))
  | [] => rfl
  | (_, Option.none) :: fields => encodeFields_eq fields
  | (name, Option.some d) :: fields => by
      rw [encodeFields, encodeChars_eq d, encodeFields_eq fields,
        visitsOfFields, firstFault?_append]
      exact outcome_bind (outcome_bind_ok _ _)

end

/- A visit of a datum only looks at whether it is finite. -/
theorem Visit.fault?_value_eq_none_iff {d : Datum} :
    (Visit.value d).fault? = Option.none ↔ d.IsFinite := by
  cases d with
  | double x => exact numberFault?_eq_none_iff
  | single x => exact numberFault?_eq_none_iff
  | _ => simp [Visit.fault?, IsFinite]

/- No visit finds a fault exactly if the datum can be encoded. -/
theorem firstFault?_eq_none_iff {d : Datum} :
    firstFault? d.visits = Option.none ↔ d.Encodable := by
  rw [firstFault?, List.findSome?_eq_none_iff, Encodable]
  constructor
  · intro hFaults
    constructor
    · intro x hVisit
      exact Visit.fault?_value_eq_none_iff.mp (hFaults _ hVisit)
    · intro k hVisit
      exact keyFault?_eq_none_iff.mp (hFaults _ hVisit)
  · rintro ⟨hValues, hKeys⟩ (x | k) hVisit
    · exact Visit.fault?_value_eq_none_iff.mpr (hValues x hVisit)
    · exact keyFault?_eq_none_iff.mpr (hKeys k hVisit)

end Datum

/- A datum has its canonical text, unless a visit has a fault. -/
theorem encode_eq_outcome (d : Datum) :
    encode d =
      (outcome (Datum.firstFault? d.visits)
        (String.ofList d.canonical.doc.write)).mapError
          .encode := by
  rw [encode, Datum.encode, Datum.encodeChars_eq, map_outcome]

/- A datum that can be encoded has the text of its plain JSON. -/
theorem encode_of_encodable
    {d : Datum}
    (hEncodable : d.Encodable) :
    encode d = .ok (.ofList d.canonical.doc.write) := by
  rw [encode_eq_outcome,
    Datum.firstFault?_eq_none_iff.mpr hEncodable]
  rfl

/-
  A datum has an encoding exactly if all its numbers are finite
  and all its keys can be keys.  The encoding is the plain JSON
  of the datum with its timestamps rewritten; a datum without one
  fails with the first fault in the order of encoding.
-/
theorem encode_eq_canonical_json (d : Datum) :
    ((∃ text, encode d = .ok text) ↔ d.Encodable) ∧
      encode d =
        match d.visits.findSome? Datum.Visit.fault? with
        | none => .ok (.ofList d.canonical.doc.write)
        | some fault => .error (.encode fault) := by
  rw [← Datum.firstFault?_eq_none_iff, encode_eq_outcome,
    ← Datum.firstFault?]
  cases Datum.firstFault? d.visits with
  | none => exact ⟨by simp [outcome, Except.mapError], rfl⟩
  | some fault => exact ⟨by simp [outcome, Except.mapError], rfl⟩

/- The key is the first fault, before the numbers around it. -/
example :
    encode (.list [.map [(.list [.double .nan], .double .nan)],
      .double .nan]) = .error (.encode .keyNotString) := rfl

end Factbase
