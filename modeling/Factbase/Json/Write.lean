import Factbase.Text.Digits

/-
  This file defines how strings, lists and objects are written
  in compact JSON, from parts that are written already.

  Key definitions include:
    * `Json.escape`
    * `Json.quoted`
    * `Json.bracketed`
    * `Json.braced`
-/

namespace Factbase.Json

------------------------------------------------------------
-- Strings
------------------------------------------------------------

/- A character as it stands in a string. -/
def escape (c : Char) : List Char :=
  if c = '"' then ['\\', '"']
  else if c = '\\' then ['\\', '\\']
  else if c = '\x08' then ['\\', 'b']
  else if c = '\x0c' then ['\\', 'f']
  else if c = '\n' then ['\\', 'n']
  else if c = '\r' then ['\\', 'r']
  else if c = '\t' then ['\\', 't']
  else if c.toNat < 0x20 then
    '\\' :: 'u' :: Digits.paddedHex 4 c.toNat
  else [c]

/- A string up to its closing quote. -/
def opening (cs : List Char) : List Char :=
  '"' :: cs.flatMap escape

/- A string. -/
def quoted (cs : List Char) : List Char :=
  opening cs ++ ['"']

------------------------------------------------------------
-- Lists and objects
------------------------------------------------------------

/- Parts with commas between them. -/
def commaSeparated : List (List Char) → List Char
  | [] => []
  | [p] => p
  | p :: q :: ps => p ++ ',' :: commaSeparated (q :: ps)

/- A list of written items. -/
def bracketed (parts : List (List Char)) : List Char :=
  '[' :: commaSeparated parts ++ [']']

/- An object of written members. -/
def braced (parts : List (List Char)) : List Char :=
  '{' :: commaSeparated parts ++ ['}']

/- A member of a written key and a written value. -/
def member (key value : List Char) : List Char :=
  key ++ ':' :: value

end Factbase.Json
