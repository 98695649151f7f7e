import Factbase.Data.Codec

/-
  This file defines triples: facts of a subject, a predicate
  and a value in its encoded form.

  Key definitions include:
    * `Triple`
    * `Triple.encoding`
    * `Triple.read`
    * `Triple.value`
    * `Triple.shown`
-/

namespace Factbase

/- A fact.  The value stays encoded until it is asked for. -/
structure Triple where
  subject : String
  predicate : String
  encoded : String
deriving DecidableEq, Repr

namespace Triple

/- A fact about a datum, if it can be encoded. -/
def encoding
    (subject predicate : String)
    (d : Datum) : Except StoreError Triple := do
  .ok ⟨subject, predicate, ← encode d⟩

/- The value in a shape that the caller names. -/
def read
    {α : Type}
    (t : Triple)
    (s : Shape α) : Except StoreError α :=
  decode s t.encoded

/- The value, whatever its shape. -/
def value (t : Triple) : Except StoreError Value :=
  t.read .value

/- A readable form of a triple. -/
def shown (t : Triple) : String :=
  "(" ++ t.subject ++ ", " ++ t.predicate ++ ", " ++ t.encoded
    ++ ")"

end Triple

end Factbase
