import Factbase.Data.Shape
import Factbase.Error

/-
  This file defines the codec of stored values.  The encoding
  is what the database compares, so equality and ranges are
  those of the encoded text.

  Key definitions include:
    * `encode`
    * `decode`
-/

namespace Factbase

/- The canonical text of a datum. -/
def encode (d : Datum) : Except StoreError String :=
  d.encode.mapError .encode

/- What a text encodes, read as a shape that the caller names. -/
def decode
    {α : Type}
    (s : Shape α)
    (text : String) : Except StoreError α :=
  (Json.readAll (s.read Json.deepest) text.toList).mapError
    fun flaw => .decode (flaw.message text.toList)

end Factbase
