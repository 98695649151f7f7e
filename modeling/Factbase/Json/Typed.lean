import Factbase.Data.IntType
import Factbase.Json.Tree

/-
  This file defines the readers of JSON values of a shape that
  the caller names.  A value of another shape is a flaw that
  tells what was found and what was expected.

  Key definitions include:
    * `Json.readInt`
    * `Json.readFloat`
    * `Json.readText`
    * `Json.readMoment`
    * `Json.readPair`
    * `Json.field`
    * `Json.readRecord`
-/

namespace Factbase

namespace Json

------------------------------------------------------------
-- Words
------------------------------------------------------------

/- A null. -/
def readUnit : Reader Unit := fun cs => do
  match ← readFront cs with
  | (.null, r) => .ok ((), r)
  | (front, r) => .error (front.misfit "unit" r)

/- A truth value. -/
def readBool : Reader Bool := fun cs => do
  match ← readFront cs with
  | (.bool b, r) => .ok (b, r)
  | (front, r) => .error (front.misfit "a boolean" r)

------------------------------------------------------------
-- Numbers
------------------------------------------------------------

/- An integer of a type of at most 64 bits. -/
def readNarrow
    (t : IntType) : Reader Int := fun cs => do
  let checked (n : Int) (r : List Char) :=
    if t.holds n then .ok (n, r)
    else .error (.here (.wrongValue (.integer n) t.name) r)
  match ← readFront cs with
  | (.number (.natural n), r) => checked n r
  | (.number (.negative n), r) => checked (-n) r
  | (front, r) => .error (front.misfit t.name r)

/- The digits of an integer of any size. -/
def readDigits :
    List Char → Except Flaw (Nat × List Char)
  | [] => .error (.here .invalidNumber [])
  | c :: r =>
      if !c.isDigit then .error (.past .invalidNumber (c :: r))
      else if c = '0' then
        if r.head?.any Char.isDigit then
          .error (.past .invalidNumber r)
        else .ok (0, r)
      else
        .ok (Digits.value (c :: r.takeWhile Char.isDigit),
          r.dropWhile Char.isDigit)

/- An integer of a type of more than 64 bits. -/
def readWide
    (t : IntType) : Reader Int := fun cs => do
  let checked (n : Int) (r : List Char) :=
    if t.holds n then .ok (n, r)
    else .error (.here .numberOutOfRange r)
  match skipBlank cs with
  | [] => .error (.here .endInValue [])
  | '-' :: r =>
      if t.signed then do
        let (n, r) ← readDigits r
        checked (-n) r
      else .error (.past .numberOutOfRange ('-' :: r))
  | r => do
      let (n, r) ← readDigits r
      checked n r

/- An integer of a type. -/
def readInt (t : IntType) : Reader Int :=
  if t.bits ≤ 64 then readNarrow t else readWide t

/- The number of a format that is nearest to a number as read. -/
def Number.toBinary
    (n : Number)
    (f : Format) : Binary f :=
  match n with
  | .natural n => Binary.ofNat n
  | .negative n => Binary.ofInt (-n)
  | .float x => x.convert f

/- A floating point number. -/
def readFloat
    (f : Format) : Reader (Binary f) := fun cs => do
  match ← readFront cs with
  | (.number n, r) => .ok (n.toBinary f, r)
  | (front, r) =>
      .error (front.misfit ("f" ++ toString f.width) r)

------------------------------------------------------------
-- Texts
------------------------------------------------------------

/- A string. -/
def readText : Reader String := fun cs => do
  match ← readFront cs with
  | (.text s, r) => .ok (s, r)
  | (front, r) => .error (front.misfit "a string" r)

/- A character, written as a string of one. -/
def readChar : Reader Char := fun cs => do
  match ← readFront cs with
  | (.text s, r) =>
      match s.toList with
      | [c] => .ok (c, r)
      | _ => .error (.here (.wrongValue (.text s) "a character") r)
  | (front, r) => .error (front.misfit "a character" r)

/- A timestamp, written as a string. -/
def readMoment : Reader Zoned := fun cs => do
  match ← readFront cs with
  | (.text s, r) =>
      match Stamp.relaxed s.toList with
      | .ok z => .ok (z, r)
      | .error fault => .error (.here (.timestamp fault) r)
  | (front, r) =>
      .error (front.misfit
        "an RFC 3339 formatted date and time string" r)

------------------------------------------------------------
-- Compounds
------------------------------------------------------------

/- A null, or a value of a shape. -/
def readOption
    {α : Type}
    (value : Reader α) : Reader (Option α) := fun cs =>
  match skipBlank cs with
  | 'n' :: r => (word "ull".toList r).map fun r => (none, r)
  | r => (value r).map fun (x, r) => (some x, r)

/- A list of items of one shape. -/
def readList
    {α : Type}
    (item : Reader α) : Reader (List α) := fun cs => do
  match ← readFront cs with
  | (.list, r) => items item r
  | (front, r) => .error (front.misfit "a sequence" r)

/- An object with values of one shape, in the order written. -/
def readMembers
    {α : Type}
    (value : Reader α) : Reader (List (String × α)) := fun cs => do
  match ← readFront cs with
  | (.object, r) => members value r
  | (front, r) => .error (front.misfit "a map" r)

/- A list of exactly two items. -/
def readPair
    {α β : Type}
    (left : Reader α)
    (right : Reader β) : Reader (α × β) := fun cs => do
  let expected := "a tuple of size 2"
  let missing (n : Nat) (r : List Char) :=
    Flaw.here (.wrongLength n expected) (r.drop 1)
  match ← readFront cs with
  | (.list, r) =>
      match ← nextItem true r with
      | (false, r) => .error (missing 0 r)
      | (true, r) =>
          let (x, r) ← left r
          match ← nextItem false r with
          | (false, r) => .error (missing 1 r)
          | (true, r) =>
              let (y, r) ← right r
              .ok ((x, y), ← endList r)
  | (front, r) => .error (front.misfit expected r)

------------------------------------------------------------
-- Records
------------------------------------------------------------

/- A named part of a record: what reads it gives its setter. -/
structure Field (σ : Type) where
  name : String
  read : Reader (σ → σ)

/- A part of a record, given its reader and its setter. -/
def field
    {σ α : Type}
    (name : String)
    (read : Reader α)
    (set : α → σ → σ) : Field σ :=
  { name := name,
    read := fun cs => (read cs).map fun (x, r) => (set x, r) }

/- Parts by position; those that are missing stay as they are. -/
def readPositions
    {σ : Type} :
    List (Field σ) → Bool → σ → Reader σ
  | [], _, s, cs => (endList cs).map fun r => (s, r)
  | f :: fs, first, s, cs => do
      match ← nextItem first cs with
      | (false, r) => .ok (s, r.drop 1)
      | (true, r) =>
          let (set, r) ← f.read r
          readPositions fs false (set s) r

/- Where the flaw of a repeated part is noted. -/
def afterRepeated (cs : List Char) : List Char :=
  match skipBlank cs with
  | '}' :: r => r
  | r => r

/-
  Parts by name, from one member on.  A part may be there once,
  and members that are no part are passed over.
-/
def readNamed
    {σ : Type}
    (fields : List (Field σ)) :
    Nat → Bool → List String → σ → Reader σ
  | 0, _, _, _, _ => .error (.here .endInObject [])
  | fuel + 1, first, seen, s, cs => do
      match ← nextKey first cs with
      | (none, r) => .ok (s, r.drop 1)
      | (some k, r) =>
          let key := String.ofList k
          match fields.find? fun f => f.name = key with
          | none =>
              let r ← skipValue (← colon r)
              readNamed fields fuel false seen s r
          | some f =>
              if key ∈ seen then
                .error
                  (.here (.duplicateField key) (afterRepeated r))
              else
                let (set, r) ← f.read (← colon r)
                readNamed fields fuel false (key :: seen) (set s) r

/- A record, as an object or as a list of its parts in order. -/
def readRecord
    {σ : Type}
    (name : String)
    (fields : List (Field σ))
    (start : σ) : Reader σ := fun cs => do
  match ← readFront cs with
  | (.list, r) => readPositions fields true start r
  | (.object, r) =>
      readNamed fields (r.length + 1) true [] start r
  | (front, r) => .error (front.misfit ("struct " ++ name) r)

end Json

end Factbase
