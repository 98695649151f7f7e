import Factbase.Calendar.Stamp
import Factbase.Json.Flaw
import Factbase.Json.Write

/-
  This file defines the data that can be stored and their
  canonical encoding, compact JSON text.

  Encoding is canonical in two ways.  Numbers that are not
  finite have no encoding, at any depth.  Timestamps, and data
  that stand for themselves by a text in RFC 3339 form, are
  written in UTC with nine fraction digits.

  Key definitions include:
    * `Datum`
    * `EncodeFault`
    * `Datum.encode`
    * `encodePrefix`
-/

namespace Factbase

------------------------------------------------------------
-- Data
------------------------------------------------------------

/-
  A datum that can be encoded.  Names of records and wrappers
  do not show in the encoding, so they are not kept.
-/
inductive Datum where
  | unit
  | bool (b : Bool)
  | integer (n : Int)
  | double (x : Binary64)
  | single (x : Binary32)
  | char (c : Char)
  | text (s : String)
  | bytes (bs : List UInt8)
  | none
  | some (d : Datum)
  /- A record of one nameless part. -/
  | wrapped (d : Datum)
  /- An alternative of a choice, without parts. -/
  | choice (variant : String)
  /- An alternative of one nameless part. -/
  | wrappedChoice (variant : String) (d : Datum)
  /- A sequence, or a record of nameless parts. -/
  | list (ds : List Datum)
  /- An alternative of nameless parts. -/
  | listChoice (variant : String) (ds : List Datum)
  /- Entries in the order given, repeated keys included. -/
  | map (entries : List (Datum × Datum))
  /- A record; a part that is none is left out. -/
  | record (fields : List (String × Option Datum))
  /- An alternative with the parts of a record. -/
  | recordChoice
      (variant : String)
      (fields : List (String × Option Datum))
  | moment (z : Zoned)
  /- A datum that stands for itself by a text. -/
  | display (s : String)
deriving Repr

/- Why a datum has no encoding. -/
inductive EncodeFault where
  | notFinite (shown : String)
  | keyNotString
deriving DecidableEq, Repr

/- The wording of a fault. -/
def EncodeFault.message : EncodeFault → String
  | .notFinite shown => shown ++ " has no canonical encoding"
  | .keyNotString => "key must be a string"

------------------------------------------------------------
-- Scalars
------------------------------------------------------------

/- A floating point number, if it is finite. -/
def encodeNumber
    {f : Format}
    (l : Layout)
    (x : Binary f) : Except EncodeFault (List Char) :=
  if x.isFinite then .ok (l.write x)
  else .error (.notFinite (.ofList (Layout.plain.write x)))

/-
  The text of a datum that stands for itself by it: in UTC with
  nine fraction digits if it is a timestamp.
-/
def canonicalText (cs : List Char) : List Char :=
  match Stamp.strict cs with
  | .ok z => Stamp.fixed z.instant
  | .error _ => cs

/- The text of a timestamp. -/
def momentText (z : Zoned) : List Char :=
  canonicalText (Stamp.brief z)

/- The text of a truth value. -/
def boolText (b : Bool) : List Char :=
  (if b then "true" else "false").toList

------------------------------------------------------------
-- Encoding
------------------------------------------------------------

namespace Datum

/- A datum as the key of an entry: always a string. -/
def encodeKey : Datum → Except EncodeFault (List Char)
  | .bool b => .ok (Json.quoted (boolText b))
  | .integer n => .ok (Json.quoted (Digits.writeInt n))
  | .double x => (encodeNumber .double x).map Json.quoted
  | .single x => (encodeNumber .single x).map Json.quoted
  | .char c => .ok (Json.quoted [c])
  | .text s => .ok (Json.quoted s.toList)
  | .some d => encodeKey d
  | .wrapped d => encodeKey d
  | .choice variant => .ok (Json.quoted variant.toList)
  | .moment z => .ok (Json.quoted (momentText z))
  | .display s => .ok (Json.quoted (canonicalText s.toList))
  | _ => .error .keyNotString

/- An alternative with its content. -/
def underVariant
    (variant : String)
    (content : List Char) : List Char :=
  Json.braced [Json.member (Json.quoted variant.toList) content]

mutual

/-
  The canonical encoding of a datum.  Parts are encoded in
  order, so the first part that has no encoding decides.
-/
def encodeChars : Datum → Except EncodeFault (List Char)
  | .unit => .ok "null".toList
  | .bool b => .ok (boolText b)
  | .integer n => .ok (Digits.writeInt n)
  | .double x => encodeNumber .double x
  | .single x => encodeNumber .single x
  | .char c => .ok (Json.quoted [c])
  | .text s => .ok (Json.quoted s.toList)
  | .bytes bs =>
      .ok (Json.bracketed (bs.map fun b => Digits.write b.toNat))
  | .none => .ok "null".toList
  | .some d => encodeChars d
  | .wrapped d => encodeChars d
  | .choice variant => .ok (Json.quoted variant.toList)
  | .wrappedChoice variant d => do
      .ok (underVariant variant (← encodeChars d))
  | .list ds => do
      .ok (Json.bracketed (← encodeItems ds))
  | .listChoice variant ds => do
      .ok (underVariant variant (Json.bracketed (← encodeItems ds)))
  | .map entries => do
      .ok (Json.braced (← encodeEntries entries))
  | .record fields => do
      .ok (Json.braced (← encodeFields fields))
  | .recordChoice variant fields => do
      .ok (underVariant variant (Json.braced (← encodeFields fields)))
  | .moment z => .ok (Json.quoted (momentText z))
  | .display s => .ok (Json.quoted (canonicalText s.toList))

/- The encodings of items. -/
def encodeItems :
    List Datum → Except EncodeFault (List (List Char))
  | [] => .ok []
  | d :: ds => do
      let part ← encodeChars d
      .ok (part :: (← encodeItems ds))

/- The encodings of entries. -/
def encodeEntries :
    List (Datum × Datum) → Except EncodeFault (List (List Char))
  | [] => .ok []
  | (k, d) :: entries => do
      let key ← encodeKey k
      let part := Json.member key (← encodeChars d)
      .ok (part :: (← encodeEntries entries))

/- The encodings of the parts of a record that are there. -/
def encodeFields :
    List (String × Option Datum) →
      Except EncodeFault (List (List Char))
  | [] => .ok []
  | (_, Option.none) :: fields => encodeFields fields
  | (name, Option.some d) :: fields => do
      let key := Json.quoted name.toList
      let part := Json.member key (← encodeChars d)
      .ok (part :: (← encodeFields fields))

end

/- The canonical encoding of a datum. -/
def encode (d : Datum) : Except EncodeFault String :=
  (encodeChars d).map String.ofList

end Datum

/-
  The encoding of a string without its closing quote.  A string
  starts with another exactly when its encoding starts with
  this form of the other.
-/
def encodePrefix (s : String) : String :=
  .ofList (Json.opening s.toList)

end Factbase
