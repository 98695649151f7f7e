import Factbase.Calendar.Date
import Factbase.Text.Digits

/-
  This file defines the readers of the words of a TOML text:
  blanks, comments, keys and strings.  Each takes the text that
  is left and gives what it read and the new rest, or nothing
  if the text is not well formed.

  Key definitions include:
    * `Toml.skipBlank`
    * `Toml.endLine`
    * `Toml.skipLines`
    * `Toml.readString`
    * `Toml.deepest`
    * `Toml.readKey`
-/

namespace Factbase.Toml

------------------------------------------------------------
-- Blanks and comments
------------------------------------------------------------

/- The characters that separate words on a line. -/
def isSpace (c : Char) : Bool :=
  c = ' ' || c = '\t'

/- A text without the blanks at its front. -/
def skipBlank (cs : List Char) : List Char :=
  cs.dropWhile isSpace

/- Characters that may not stand in a text. -/
def isControl (c : Char) : Bool :=
  (c.toNat < 0x20 && c ≠ '\t') || c.toNat = 0x7f

/- A text after the rest of a comment. -/
def skipComment (cs : List Char) : List Char :=
  cs.dropWhile fun c => !isControl c

/- The end of a line, or of the text, after blanks and a comment. -/
def endLine (cs : List Char) : Option (List Char) :=
  let r := match skipBlank cs with
    | '#' :: r => skipComment r
    | r => r
  match r with
  | [] => some []
  | '\n' :: r => some r
  | '\r' :: '\n' :: r => some r
  | _ => none

/- Pass over empty lines; each takes a character. -/
def skipLinesWithin : Nat → List Char → List Char
  | 0, cs => cs
  | fuel + 1, cs =>
      match skipBlank cs with
      | '\n' :: r => skipLinesWithin fuel r
      | '\r' :: '\n' :: r => skipLinesWithin fuel r
      | '#' :: r => skipLinesWithin fuel (skipComment r)
      | r => r

/- Pass over blanks, comments and the ends of lines. -/
def skipLines (cs : List Char) : List Char :=
  skipLinesWithin (cs.length + 1) cs

------------------------------------------------------------
-- Strings
------------------------------------------------------------

/- The character written as a number of hexadecimal digits. -/
def readScalar
    (count : Nat)
    (cs : List Char) : Option (Char × List Char) := do
  let ds := cs.take count
  if ds.length < count then none
  else
    let c ← Digits.character? (← Digits.hexValue? ds)
    pure (c, cs.drop count)

/- The character written after a backslash. -/
def readEscape : List Char → Option (Char × List Char)
  | 'b' :: r => some ('\x08', r)
  | 'e' :: r => some ('\x1b', r)
  | 't' :: r => some ('\t', r)
  | 'n' :: r => some ('\n', r)
  | 'f' :: r => some ('\x0c', r)
  | 'r' :: r => some ('\r', r)
  | '"' :: r => some ('"', r)
  | '\\' :: r => some ('\\', r)
  | 'x' :: r => readScalar 2 r
  | 'u' :: r => readScalar 4 r
  | 'U' :: r => readScalar 8 r
  | _ => none

/- Pass over blanks and the ends of lines. -/
def skipBreaks : Nat → List Char → List Char
  | 0, cs => cs
  | fuel + 1, cs =>
      match skipBlank cs with
      | '\n' :: r => skipBreaks fuel r
      | '\r' :: '\n' :: r => skipBreaks fuel r
      | r => r

/- A backslash at the end of a line, with the blanks after it. -/
def readLineEnd (cs : List Char) : Option (List Char) :=
  match skipBlank cs with
  | '\n' :: r => some (skipBreaks (r.length + 1) r)
  | '\r' :: '\n' :: r => some (skipBreaks (r.length + 1) r)
  | _ => none

/- The characters of a string on one line, to its quote. -/
def readShort
    (quote : Char) :
    Nat → List Char → Option (List Char × List Char)
  | 0, _ => none
  | _ + 1, [] => none
  | fuel + 1, c :: r =>
      if c = quote then some ([], r)
      else if c = '\\' ∧ quote = '"' then do
        let (d, r) ← readEscape r
        let (ds, r) ← readShort quote fuel r
        pure (d :: ds, r)
      else if isControl c then none
      else do
        let (ds, r) ← readShort quote fuel r
        pure (c :: ds, r)

/- How many quotes a text starts with, five at most. -/
def quotes
    (quote : Char)
    (cs : List Char) : Nat :=
  ((cs.take 5).takeWhile (· = quote)).length

/-
  The characters of a string on several lines, to its three
  quotes.  Up to two more quotes before those belong to the
  string.
-/
def readLong
    (quote : Char) :
    Nat → List Char → Option (List Char × List Char)
  | 0, _ => none
  | _ + 1, [] => none
  | fuel + 1, c :: r =>
      let n := quotes quote (c :: r)
      if 3 ≤ n then
        some (List.replicate (n - 3) quote, (c :: r).drop n)
      else if c = '\\' ∧ quote = '"' then
        match readLineEnd r with
        | some r => readLong quote fuel r
        | none => do
            let (d, r) ← readEscape r
            let (ds, r) ← readLong quote fuel r
            pure (d :: ds, r)
      else if c = '\r' then
        match r with
        | '\n' :: r => do
            let (ds, r) ← readLong quote fuel r
            pure ('\r' :: '\n' :: ds, r)
        | _ => none
      else if c ≠ '\n' ∧ isControl c then none
      else do
        let (ds, r) ← readLong quote fuel r
        pure (c :: ds, r)

/- A line end right after three quotes is not in the string. -/
def dropFirstBreak : List Char → List Char
  | '\n' :: r => r
  | '\r' :: '\n' :: r => r
  | r => r

/- A string between quotes, of one or of several lines. -/
def readString
    (cs : List Char) : Option (List Char × List Char) :=
  match cs with
  | [] => none
  | quote :: r =>
      if quote ∈ ['"', '\x27'] then
        if 3 ≤ quotes quote cs then
          let r := dropFirstBreak (cs.drop 3)
          readLong quote (r.length + 1) r
        else readShort quote (r.length + 1) r
      else none

------------------------------------------------------------
-- Keys
------------------------------------------------------------

/- The characters of a bare key. -/
def isBare (c : Char) : Bool :=
  c.isAlphanum || c = '_' || c = '-'

/- One part of a key. -/
def readPart (cs : List Char) : Option (String × List Char) :=
  match cs with
  | [] => none
  | c :: r =>
      if c ∈ ['"', '\x27'] then do
        let (ds, r) ← readShort c (r.length + 1) r
        pure (.ofList ds, r)
      else
        match cs.takeWhile isBare with
        | [] => none
        | ds => some (.ofList ds, cs.dropWhile isBare)

/- A key of parts with points between them. -/
def readKeyWithin :
    Nat → List Char → Option (List String × List Char)
  | 0, _ => none
  | fuel + 1, cs => do
      let (part, r) ← readPart (skipBlank cs)
      match skipBlank r with
      | '.' :: r => do
          let (parts, r) ← readKeyWithin fuel r
          pure (part :: parts, r)
      | r => pure ([part], r)

/- How many parts a key may have, and how deep values may lie
   in each other. -/
def deepest : Nat :=
  80

/- A key that is not too long; each of its parts takes a
   character. -/
def readKey
    (cs : List Char) : Option (List String × List Char) := do
  let (key, r) ← readKeyWithin (cs.length + 1) cs
  if key.length ≤ deepest then pure (key, r) else none

end Factbase.Toml
