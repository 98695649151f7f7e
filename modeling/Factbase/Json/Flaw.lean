import Factbase.Binary.Layout
import Factbase.Calendar.Reader
import Factbase.Text.Bytes
import Factbase.Text.Shown

/-
  This file defines what can be wrong with a JSON text that is
  read into a value of some shape, and where.

  A reader knows the text that it has not passed yet, so it
  notes the place of a flaw by the bytes left there.  Line and
  column are counted from the whole text afterwards; columns
  count bytes.

  Key definitions include:
    * `Json.Found`
    * `Json.Cause`
    * `Json.Flaw`
    * `Json.place`
    * `Json.Flaw.message`
-/

namespace Factbase

------------------------------------------------------------
-- Number layouts
------------------------------------------------------------

def Layout.double : Layout :=
  { tie := .even, positional := some (-5, 15), fraction := true }

/- JSON numbers of the 32-bit format. -/
def Layout.single : Layout :=
  { tie := .even, positional := some (-6, 12), fraction := true }

namespace Json

------------------------------------------------------------
-- Causes
------------------------------------------------------------

/- What a reader found in place of the shape it wants. -/
inductive Found where
  | null
  | bool (b : Bool)
  | integer (n : Int)
  | float (x : Binary64)
  | text (s : String)
  | sequence
  | map
deriving DecidableEq, Repr

/- The wording of what was found. -/
def Found.message : Found → String
  | .null => "null"
  | .bool true => "boolean `true`"
  | .bool false => "boolean `false`"
  | .integer n =>
      "integer `" ++ String.ofList (Digits.writeInt n) ++ "`"
  | .float x =>
      "floating point `" ++ String.ofList (Layout.double.write x)
        ++ "`"
  | .text s => "string " ++ Shown.text s
  | .sequence => "sequence"
  | .map => "map"

/- What is wrong with a text. -/
inductive Cause where
  | endInValue
  | endInList
  | endInObject
  | endInString
  | expectedColon
  | expectedCommaInList
  | expectedCommaInObject
  | expectedWord
  | expectedValue
  | keyNotString
  | trailingComma
  | trailingCharacters
  | invalidEscape
  | invalidNumber
  | numberOutOfRange
  | loneSurrogate
  | unfinishedPair
  | controlCharacter
  | tooDeep
  | wrongType (found : Found) (expected : String)
  | wrongValue (found : Found) (expected : String)
  | wrongLength (count : Nat) (expected : String)
  | duplicateField (name : String)
  | timestamp (fault : Stamp.Fault)
deriving DecidableEq, Repr

/- The wording of a cause. -/
def Cause.message : Cause → String
  | .endInValue => "EOF while parsing a value"
  | .endInList => "EOF while parsing a list"
  | .endInObject => "EOF while parsing an object"
  | .endInString => "EOF while parsing a string"
  | .expectedColon => "expected `:`"
  | .expectedCommaInList => "expected `,` or `]`"
  | .expectedCommaInObject => "expected `,` or `\x7d`"
  | .expectedWord => "expected ident"
  | .expectedValue => "expected value"
  | .keyNotString => "key must be a string"
  | .trailingComma => "trailing comma"
  | .trailingCharacters => "trailing characters"
  | .invalidEscape => "invalid escape"
  | .invalidNumber => "invalid number"
  | .numberOutOfRange => "number out of range"
  | .loneSurrogate =>
      "lone leading surrogate in hex escape"
  | .unfinishedPair => "unexpected end of hex escape"
  | .controlCharacter =>
      "control character (\\u0000-\\u001F) found while parsing a string"
  | .tooDeep => "recursion limit exceeded"
  | .wrongType found expected =>
      "invalid type: " ++ found.message ++ ", expected " ++ expected
  | .wrongValue found expected =>
      "invalid value: " ++ found.message ++ ", expected " ++ expected
  | .wrongLength count expected =>
      "invalid length " ++ toString count ++ ", expected " ++ expected
  | .duplicateField name => "duplicate field `" ++ name ++ "`"
  | .timestamp fault => fault.message

------------------------------------------------------------
-- Places
------------------------------------------------------------

/- A cause, and how many bytes of the text are left there. -/
structure Flaw where
  cause : Cause
  left : Nat
deriving DecidableEq, Repr

/- A flaw at the front of the rest of a text. -/
def Flaw.here
    (cause : Cause)
    (rest : List Char) : Flaw :=
  ⟨cause, byteLength rest⟩

/- A flaw just past the next byte of the rest of a text. -/
def Flaw.past
    (cause : Cause)
    (rest : List Char) : Flaw :=
  ⟨cause, byteLength rest - 1⟩

/- Line and column after some bytes of a text. -/
def walk
    (line column : Nat) :
    List Char → Nat → Nat × Nat
  | [], _ => (line, column)
  | c :: cs, offset =>
      if offset < c.utf8Size then (line, column + offset)
      else if c = '\n' then walk (line + 1) 0 cs (offset - 1)
      else
        walk line (column + c.utf8Size) cs (offset - c.utf8Size)

/- Line and column where some bytes of a text are left. -/
def place
    (text : List Char)
    (left : Nat) : Nat × Nat :=
  walk 1 0 text (byteLength text - left)

/- The wording of a flaw in a text. -/
def Flaw.message
    (text : List Char)
    (flaw : Flaw) : String :=
  let (line, column) := place text flaw.left
  flaw.cause.message ++ " at line " ++ toString line
    ++ " column " ++ toString column

end Json

end Factbase
