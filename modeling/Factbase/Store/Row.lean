import Factbase.Triple

/-
  This file defines the rows of a collection and their order.

  A row holds a triple whose value is text as a rule.  Other
  programs may also have left bytes there, which sort after
  every text and cannot be read as a value.

  Key definitions include:
    * `Cell`
    * `Row`
    * `Row.compare`
    * `Row.readAll`
    * `Row.sort`
    * `Row.upsert`
    * `Row.delete`
    * `Row.least?`
-/

namespace Factbase

------------------------------------------------------------
-- Cells
------------------------------------------------------------

/- A stored value. -/
inductive Cell where
  | text (s : String)
  | blob (bytes : List UInt8)
deriving DecidableEq, Repr

namespace Cell

/- Order by bytes, with every text before every blob. -/
def compare : Cell → Cell → Ordering
  | .text a, .text b => Ord.compare a b
  | .text _, .blob _ => .lt
  | .blob _, .text _ => .gt
  | .blob a, .blob b => Ord.compare a b

/-
  The cell is a text with a given start.  As many characters
  of the cell are compared as the start has.
-/
def startsWith
    (start : String)
    (count : Nat) : Cell → Bool
  | .text s => s.toList.take count = start.toList
  | .blob _ => false

end Cell

------------------------------------------------------------
-- Rows
------------------------------------------------------------

/- A row of a collection. -/
structure Row where
  subject : String
  predicate : String
  value : Cell
deriving DecidableEq, Repr

/- The row that stores a triple. -/
def Triple.row (t : Triple) : Row :=
  ⟨t.subject, t.predicate, .text t.encoded⟩

namespace Row

/- Order by subject, then predicate, then value. -/
def compare : Row → Row → Ordering :=
  compareLex (compareOn Row.subject)
    (compareLex (compareOn Row.predicate)
      fun a b => a.value.compare b.value)

/- The triple that a row stores. -/
def read (r : Row) : Except EngineFault Triple :=
  match r.value with
  | .text s => .ok ⟨r.subject, r.predicate, s⟩
  | .blob _ => .error .blobInValue

/- The triples of rows, if all can be read. -/
def readAll (rs : List Row) : Except EngineFault (List Triple) :=
  rs.mapM Row.read

/- Rows in their order. -/
def sort (rs : List Row) : List Row :=
  rs.mergeSort fun a b => (compare a b).isLE

/- Add a row, unless it is there. -/
def upsert
    (r : Row)
    (rs : List Row) : List Row :=
  if r ∈ rs then rs else r :: rs

/- Remove the rows that meet a condition. -/
def delete
    (doomed : Row → Bool)
    (rs : List Row) : List Row :=
  rs.filter fun r => !doomed r

/- The row with the least value. -/
def least? : List Row → Option Row
  | [] => none
  | r :: rs =>
      some (rs.foldl
        (fun a b => if b.value.compare a.value = .lt then b else a)
        r)

end Row

end Factbase
