import Factbase.Binary.Decimal
import Factbase.Data.IntType
import Factbase.Settings.Config
import Factbase.Toml.Scan

/-
  This file defines the scalars of a TOML text that stand
  without quotes: truth values, numbers, dates and times.

  Key definitions include:
    * `Toml.integer?`
    * `Toml.float?`
    * `Toml.dateTime?`
    * `Toml.ofDateTime`
    * `Toml.readScalarValue`
-/

namespace Factbase.Toml

------------------------------------------------------------
-- Digits
------------------------------------------------------------

/-
  Digits, perhaps with underscores between two of them, without
  the underscores.
-/
def plainDigits?
    (isDigit : Char → Bool) : List Char → Option (List Char)
  | [] => none
  | [c] => if isDigit c then some [c] else none
  | c :: '_' :: cs =>
      if isDigit c then (plainDigits? isDigit cs).map (c :: ·)
      else none
  | c :: cs =>
      if isDigit c then (plainDigits? isDigit cs).map (c :: ·)
      else none

/- The value of digits in some base. -/
def valueIn
    (base : Nat)
    (ds : List Char) : Option Nat :=
  ds.foldl
    (fun acc c => do
      let n ← acc
      let d ← Digits.hexDigit? c
      pure (base * n + d))
    (some 0)

/- A natural number in a base, after its mark. -/
def based?
    (base : Nat)
    (cs : List Char) : Option Nat := do
  let isDigit c := (Digits.hexDigit? c).any (· < base)
  valueIn base (← plainDigits? isDigit cs)

/- Decimal digits without a zero before others. -/
def decimal? (cs : List Char) : Option (List Char) := do
  let ds ← plainDigits? Char.isDigit cs
  if ds.head? = some '0' ∧ 1 < ds.length then none else pure ds

/- The sign of a number, true for minus, and what follows. -/
def signed (cs : List Char) : Bool × List Char :=
  match cs with
  | '-' :: r => (true, r)
  | '+' :: r => (false, r)
  | r => (false, r)

------------------------------------------------------------
-- Numbers
------------------------------------------------------------

/- An integer of any size. -/
def wholeNumber? : List Char → Option Int
  | '0' :: 'x' :: r => (based? 16 r).map Int.ofNat
  | '0' :: 'o' :: r => (based? 8 r).map Int.ofNat
  | '0' :: 'b' :: r => (based? 2 r).map Int.ofNat
  | cs => do
      let (minus, r) := signed cs
      let n : Int := Digits.value (← decimal? r)
      pure (if minus then -n else n)

/- An integer of 64 bits. -/
def integer? (cs : List Char) : Option Int := do
  let n ← wholeNumber? cs
  if IntType.i64.holds n then pure n else none

/- The exponent of a number, in the form that has a letter. -/
def exponent? : List Char → Option (List Char)
  | [] => some []
  | c :: r => do
      if c ∉ ['e', 'E'] then none
      else
        let (minus, r) := signed r
        let ds ← plainDigits? Char.isDigit r
        pure ('e' :: (if minus then '-' :: ds else ds))

/- The fraction and the exponent of a number. -/
def fraction? : List Char → Option (List Char)
  | '.' :: r => do
      let isPart c := c.isDigit || c = '_'
      let ds ← plainDigits? Char.isDigit (r.takeWhile isPart)
      let e ← exponent? (r.dropWhile isPart)
      pure ('.' :: ds ++ e)
  | r => exponent? r

/- A number that digits are near to, unless it is too large. -/
def finite? (ds : List Char) : Option Binary64 := do
  let x ← Binary.ofText? (.ofList ds)
  if x.isFinite then pure x else none

/- A floating point number. -/
def float? (cs : List Char) : Option Binary64 := do
  let (minus, r) := signed cs
  let x ←
    if r = "inf".toList then
      pure ⟨false, Format.double.infinity⟩
    else if r = "nan".toList then pure Binary.nan
    else
      let isPart c := c.isDigit || c = '_'
      let ds ← decimal? (r.takeWhile isPart)
      let part ← fraction? (r.dropWhile isPart)
      if part = [] then none else finite? (ds ++ part)
  pure (if minus then x.neg else x)

------------------------------------------------------------
-- Dates and times
------------------------------------------------------------

/- A number of exactly some digits at the front of a text. -/
def digits?
    (count : Nat)
    (cs : List Char) : Option (Nat × List Char) :=
  let ds := cs.take count
  if ds.length = count ∧ ds.all Char.isDigit then
    some (Digits.value ds, cs.drop count)
  else none

/- A date, as it is written. -/
def date? (cs : List Char) : Option (List Char × List Char) := do
  let (year, r) ← digits? 4 cs
  let '-' :: r := r | none
  let (month, r) ← digits? 2 r
  let '-' :: r := r | none
  let (day, r) ← digits? 2 r
  if 1 ≤ month ∧ month ≤ 12 ∧ 1 ≤ day
      ∧ day ≤ Date.daysIn year month then
    pure (cs.take 10, r)
  else none

/- The fraction of a second, cut after nine digits. -/
def secondFraction (cs : List Char) : List Char × List Char :=
  match cs with
  | '.' :: r =>
      match (r.takeWhile Char.isDigit).take 9 with
      | [] => ([], cs)
      | ds =>
          let kept := (ds.reverse.dropWhile (· = '0')).reverse
          (if ds.all (· = '0') then ".0".toList
            else '.' :: kept,
            r.dropWhile Char.isDigit)
  | r => ([], r)

/- The seconds of a time, and their fraction. -/
def seconds? (cs : List Char) : Option (List Char × List Char) := do
  let (second, r) ← digits? 2 cs
  if second ≤ 60 then
    let (fraction, r) := secondFraction r
    pure (':' :: cs.take 2 ++ fraction, r)
  else none

/- A time of day, with seconds or without. -/
def time? (cs : List Char) : Option (List Char × List Char) := do
  let (hour, r) ← digits? 2 cs
  let ':' :: r := r | none
  let (minute, r) ← digits? 2 r
  if hour ≤ 23 ∧ minute ≤ 59 then
    match r with
    | ':' :: r => do
        let (second, r) ← seconds? r
        pure (cs.take 5 ++ second, r)
    | r => pure (cs.take 5, r)
  else none

/- An offset from UTC, if there is one; none is below zero by
   no time at all. -/
def offset? : List Char → Option (List Char)
  | [] => some []
  | ['Z'] => some ['Z']
  | ['z'] => some ['Z']
  | sign :: r => do
      if sign ∉ ['+', '-'] then none
      else
        let (hour, s) ← digits? 2 r
        let ':' :: s := s | none
        let (minute, s) ← digits? 2 s
        if hour ≤ 23 ∧ minute ≤ 59 ∧ s = [] then
          pure ((if hour = 0 ∧ minute = 0 then '+' else sign) :: r)
        else none

/- A date, a time or both, as text. -/
def dateTime? (cs : List Char) : Option (List Char) :=
  match date? cs with
  | some (date, []) => some date
  | some (date, c :: r) => do
      if c ∉ ['T', 't', ' '] then none
      else
        let (time, r) ← time? r
        pure (date ++ 'T' :: time ++ (← offset? r))
  | none => do
      let (time, r) ← time? cs
      if r = [] then pure time else none

------------------------------------------------------------
-- Scalars
------------------------------------------------------------

/- The characters of a scalar without quotes. -/
def isScalarChar (c : Char) : Bool :=
  c.isAlphanum || c ∈ ['_', '-', '+', '.', ':']

/- The word that a scalar is written as; a blank may stand
   between a date and a time. -/
def scalarWord (cs : List Char) : List Char × List Char :=
  let word := cs.takeWhile isScalarChar
  let rest := cs.dropWhile isScalarChar
  match date? word, rest with
  | some (_, []), ' ' :: r =>
      if r.head?.any Char.isDigit then
        (word ++ ' ' :: r.takeWhile isScalarChar,
          r.dropWhile isScalarChar)
      else (word, rest)
  | _, _ => (word, rest)

/- The key that marks a table as a date. -/
def dateKey : String :=
  "$__toml_private_datetime"

/- A date or time as the table that stands for it. -/
def ofDateTime (cs : List Char) : Config :=
  .table [(dateKey, .text (.ofList cs))]

/- The scalar that a word stands for. -/
def scalarOf? (word : List Char) : Option Config :=
  if word = "true".toList then some (.bool true)
  else if word = "false".toList then some (.bool false)
  else
    ((integer? word).map Config.integer).or
      (((float? word).map Config.float).or
        ((dateTime? word).map ofDateTime))

/- A scalar without quotes. -/
def readScalarValue
    (cs : List Char) : Option (Config × List Char) := do
  let (word, r) := scalarWord cs
  pure (← scalarOf? word, r)

end Factbase.Toml
