import Factbase.Json.Flaw

/-
  This file defines the readers of the words of a JSON text:
  blanks, literal names, strings and numbers.  Each takes the
  text that is left and gives what it read and the new rest.

  Key definitions include:
    * `Json.skipBlank`
    * `Json.word`
    * `Json.readChars`
    * `Json.Number`
    * `Json.readNumber`
-/

namespace Factbase.Json

------------------------------------------------------------
-- Blanks and words
------------------------------------------------------------

/- The characters that separate words. -/
def isSpace (c : Char) : Bool :=
  c = ' ' || c = '\n' || c = '\t' || c = '\r'

/- A text without the blanks at its front. -/
def skipBlank (cs : List Char) : List Char :=
  cs.dropWhile isSpace

/- The rest of a literal name whose first letter was read. -/
def word : List Char → List Char → Except Flaw (List Char)
  | [], cs => .ok cs
  | _ :: _, [] => .error (.here .endInValue [])
  | w :: ws, c :: cs =>
      if c = w then word ws cs
      else .error (.past .expectedWord (c :: cs))

------------------------------------------------------------
-- Strings
------------------------------------------------------------

/- Four hexadecimal digits. -/
def fourHex (cs : List Char) : Except Flaw (Nat × List Char) :=
  if byteLength cs < 4 then .error (.here .endInString [])
  else if (cs.take 4).length < 4 then
    .error ⟨.invalidEscape, byteLength cs - 4⟩
  else match Digits.hexValue? (cs.take 4) with
    | some n => .ok (n, cs.drop 4)
    | none => .error ⟨.invalidEscape, byteLength cs - 4⟩

/- The second half of a character written as two code units. -/
def secondHalf
    (first : Nat)
    (cs : List Char) : Except Flaw (Char × List Char) :=
  match cs with
  | [] => .error (.here .endInString [])
  | '\\' :: [] => .error (.here .endInString [])
  | '\\' :: 'u' :: r => do
      let (second, r) ← fourHex r
      if second < 0xdc00 ∨ 0xdfff < second then
        .error (.here .loneSurrogate r)
      else
        let code := (first - 0xd800) * 0x400 + (second - 0xdc00)
        .ok (Char.ofNat (code + 0x10000), r)
  | '\\' :: c :: r => .error (.past .unfinishedPair (c :: r))
  | c :: r => .error (.past .unfinishedPair (c :: r))

/- The character written after a backslash and the letter u. -/
def codeUnit
    (cs : List Char) : Except Flaw (Char × List Char) := do
  let (n, r) ← fourHex cs
  if 0xdc00 ≤ n ∧ n ≤ 0xdfff then .error (.here .loneSurrogate r)
  else if 0xd800 ≤ n ∧ n ≤ 0xdbff then secondHalf n r
  else .ok (Char.ofNat n, r)

/- The character that an escape letter stands for. -/
def escapeLetter? : Char → Option Char
  | '"' => some '"'
  | '\\' => some '\\'
  | '/' => some '/'
  | 'b' => some '\x08'
  | 'f' => some '\x0c'
  | 'n' => some '\n'
  | 'r' => some '\r'
  | 't' => some '\t'
  | _ => none

/- The character written after a backslash. -/
def escaped : List Char → Except Flaw (Char × List Char)
  | [] => .error (.here .endInString [])
  | 'u' :: r => codeUnit r
  | c :: r =>
      match escapeLetter? c with
      | some d => .ok (d, r)
      | none => .error (.past .invalidEscape (c :: r))

/-
  The characters of a string whose opening quote was read.
  Each round passes at least one character, so the count of
  characters left bounds the rounds.
-/
def readCharsWithin :
    Nat → List Char → Except Flaw (List Char × List Char)
  | 0, _ => .error (.here .endInString [])
  | _ + 1, [] => .error (.here .endInString [])
  | _ + 1, '"' :: r => .ok ([], r)
  | fuel + 1, '\\' :: r => do
      let (c, r) ← escaped r
      let (cs, r) ← readCharsWithin fuel r
      .ok (c :: cs, r)
  | fuel + 1, c :: r =>
      if c.toNat < 0x20 then
        .error (.past .controlCharacter (c :: r))
      else do
        let (cs, r) ← readCharsWithin fuel r
        .ok (c :: cs, r)

/- The characters of a string whose opening quote was read. -/
def readChars
    (cs : List Char) : Except Flaw (List Char × List Char) :=
  readCharsWithin (cs.length + 1) cs

/- Pass over an escape without looking at what it stands for. -/
def skipEscape : List Char → Except Flaw (List Char)
  | [] => .error (.here .endInString [])
  | 'u' :: r => (fourHex r).map Prod.snd
  | c :: r =>
      match escapeLetter? c with
      | some _ => .ok r
      | none => .error (.past .invalidEscape (c :: r))

/- Pass over a string whose opening quote was read. -/
def skipCharsWithin : Nat → List Char → Except Flaw (List Char)
  | 0, _ => .error (.here .endInString [])
  | _ + 1, [] => .error (.here .endInString [])
  | _ + 1, '"' :: r => .ok r
  | fuel + 1, '\\' :: r => do skipCharsWithin fuel (← skipEscape r)
  | fuel + 1, c :: r =>
      if c.toNat < 0x20 then
        .error (.here .controlCharacter (c :: r))
      else skipCharsWithin fuel r

/- Pass over a string whose opening quote was read. -/
def skipChars (cs : List Char) : Except Flaw (List Char) :=
  skipCharsWithin (cs.length + 1) cs

------------------------------------------------------------
-- Numbers
------------------------------------------------------------

/-
  A number as read: a natural number of up to 64 bits, a
  negative integer of up to 64 bits, or a floating point
  number.
-/
inductive Number where
  | natural (n : Nat)
  | negative (n : Nat)
  | float (x : Binary64)
deriving DecidableEq, Repr

/- The number as something found in place of a shape. -/
def Number.found : Number → Found
  | .natural n => .integer n
  | .negative n => .integer (-n)
  | .float x => .float x

/- The greatest significand that is kept. -/
def significandLimit : Nat :=
  twoTo 64 - 1

/- The greatest exponent that is kept. -/
def exponentLimit : Nat :=
  twoTo 31 - 1

/-
  Add digits to a significand up to the limit.  Gives the
  significand, how many digits it took, and the rest, which
  starts with a digit exactly when that one did not fit.
-/
def gather
    (significand taken : Nat) :
    List Char → Nat × Nat × List Char
  | [] => (significand, taken, [])
  | c :: cs =>
      if c.isDigit then
        let next := significand * 10 + Digits.digit c
        if significandLimit < next then
          (significand, taken, c :: cs)
        else gather next (taken + 1) cs
      else (significand, taken, c :: cs)

/-
  A significand times a power of ten, as a quotient or product
  by the nearest number to that power.  Powers too small for
  the format are divided out in two steps; a significand is
  zero after two of them.
-/
def scale
    (x : Binary64)
    (exponent : Int) : Nat → Option Binary64
  | 0 => some x
  | fuel + 1 =>
      if exponent.natAbs ≤ 308 then
        let power := Binary.ofNat (tenTo exponent.natAbs)
        if 0 ≤ exponent then
          let y := x.mul power
          if y.isFinite then some y else none
        else some (x.div power)
      else if x.isZero then some x
      else if 0 ≤ exponent then none
      else
        scale (x.div (Binary.ofNat (tenTo 308)))
          (exponent + 308) fuel

/- The floating point number of a significand and an exponent. -/
def assemble
    (minus : Bool)
    (significand : Nat)
    (exponent : Int)
    (rest : List Char) : Except Flaw (Number × List Char) :=
  match scale (Binary.ofNat significand) exponent 4 with
  | some x => .ok (.float (if minus then x.neg else x), rest)
  | none => .error (.here .numberOutOfRange rest)

/-
  The digits of an exponent.  Gives no number when the limit
  is passed, with the rest after the digit that passed it.
-/
def exponentDigits
    (n : Nat) :
    List Char → Option Nat × List Char
  | [] => (some n, [])
  | c :: cs =>
      if c.isDigit then
        let next := n * 10 + Digits.digit c
        if exponentLimit < next then (none, cs)
        else exponentDigits next cs
      else (some n, c :: cs)

/- The sign of an exponent, true for minus. -/
def exponentSign : List Char → Bool × List Char
  | '+' :: r => (false, r)
  | '-' :: r => (true, r)
  | r => (false, r)

/- The exponent of a number, after the letter. -/
def readExponent
    (minus : Bool)
    (significand : Nat)
    (exponent : Int)
    (cs : List Char) : Except Flaw (Number × List Char) :=
  let (down, r) := exponentSign cs
  match r with
  | [] => .error (.here .endInValue [])
  | c :: r =>
      if !c.isDigit then .error (.past .invalidNumber (c :: r))
      else match exponentDigits (Digits.digit c) r with
        | (some n, r) =>
            assemble minus significand
              (if down then exponent - n else exponent + n) r
        | (none, r) =>
            if significand ≠ 0 ∧ !down then
              .error (.here .numberOutOfRange r)
            else
              .ok (.float ⟨minus, 0⟩, r.dropWhile Char.isDigit)

/- The end of a number with a fraction or too many digits. -/
def finish
    (minus : Bool)
    (significand : Nat)
    (exponent : Int)
    (cs : List Char) : Except Flaw (Number × List Char) :=
  match cs with
  | 'e' :: r => readExponent minus significand exponent r
  | 'E' :: r => readExponent minus significand exponent r
  | r => assemble minus significand exponent r

/- The fraction of a number, after the point. -/
def readFraction
    (minus : Bool)
    (significand : Nat)
    (exponent : Int)
    (cs : List Char) : Except Flaw (Number × List Char) :=
  match cs with
  | [] => .error (.here .endInValue [])
  | c :: r =>
      if !c.isDigit then .error (.past .invalidNumber (c :: r))
      else
        let (significand, taken, r) := gather significand 0 cs
        finish minus significand (exponent - taken)
          (r.dropWhile Char.isDigit)

/- A whole number that fits the significand. -/
def whole
    (minus : Bool)
    (significand : Nat) : Number :=
  if !minus then .natural significand
  else if 0 < significand ∧ significand ≤ twoTo 63 then
    .negative significand
  else .float (Binary.ofNat significand : Binary64).neg

/-
  A number after its sign.  Digits that do not fit the
  significand only raise the exponent.
-/
def readUnsigned
    (minus : Bool)
    (cs : List Char) : Except Flaw (Number × List Char) :=
  match cs with
  | [] => .error (.here .endInValue [])
  | c :: r =>
      if !c.isDigit then .error (.past .invalidNumber (c :: r))
      else if c = '0' ∧ (r.head?.any Char.isDigit) then
        .error (.past .invalidNumber r)
      else
        let (significand, _, r) := gather 0 0 cs
        let extra := (r.takeWhile Char.isDigit).length
        match r.dropWhile Char.isDigit with
        | '.' :: r => readFraction minus significand extra r
        | 'e' :: r => readExponent minus significand extra r
        | 'E' :: r => readExponent minus significand extra r
        | r =>
            if extra = 0 then .ok (whole minus significand, r)
            else assemble minus significand extra r

/- A number that starts with a minus sign or a digit. -/
def readNumber :
    List Char → Except Flaw (Number × List Char)
  | '-' :: r => readUnsigned true r
  | cs => readUnsigned false cs

/- Pass over the digits of an exponent, after the letter. -/
def skipExponent (cs : List Char) : Except Flaw (List Char) :=
  match (exponentSign cs).2 with
  | [] => .error (.here .invalidNumber [])
  | c :: r =>
      if c.isDigit then .ok (r.dropWhile Char.isDigit)
      else .error (.past .invalidNumber (c :: r))

/- Pass over the fraction of a number, after the point. -/
def skipFraction (cs : List Char) : Except Flaw (List Char) :=
  if (cs.head?.any Char.isDigit) then
    match cs.dropWhile Char.isDigit with
    | 'e' :: r => skipExponent r
    | 'E' :: r => skipExponent r
    | r => .ok r
  else .error (.past .invalidNumber cs)

/- Pass over the digits before the point. -/
def skipWhole : List Char → Except Flaw (List Char)
  | [] => .error (.here .invalidNumber [])
  | c :: r =>
      if !c.isDigit then .error (.past .invalidNumber (c :: r))
      else if c = '0' then
        if (r.head?.any Char.isDigit) then
          .error (.past .invalidNumber r)
        else .ok r
      else .ok (r.dropWhile Char.isDigit)

/- Pass over a number after its sign, whatever its size. -/
def skipNumber (cs : List Char) : Except Flaw (List Char) := do
  match ← skipWhole cs with
  | '.' :: r => skipFraction r
  | 'e' :: r => skipExponent r
  | 'E' :: r => skipExponent r
  | r => .ok r

end Factbase.Json
