import Factbase.Data.Value
import Factbase.Json.Typed

/-
  This file defines the shapes that callers name to write and
  to read values.  A shape says which datum a value of it is
  written as, and how such a value is read.

  Key definitions include:
    * `Shape`
    * `Shape.int`
    * `Shape.list`
    * `Shape.pair`
    * `Shape.map`
    * `Shape.value`
-/

namespace Factbase

/- How values of a type are written and read. -/
structure Shape (α : Type) where
  toDatum : α → Datum
  /- The number bounds the nesting of what is read. -/
  read : Nat → Json.Reader α

namespace Shape

variable {α β : Type}

------------------------------------------------------------
-- Scalars
------------------------------------------------------------

/- No content. -/
def unit : Shape Unit :=
  { toDatum := fun _ => .unit,
    read := fun _ => Json.readUnit }

/- Truth values. -/
def bool : Shape Bool :=
  { toDatum := .bool,
    read := fun _ => Json.readBool }

/- Integers of a type. -/
def int (t : IntType) : Shape Int :=
  { toDatum := .integer,
    read := fun _ => Json.readInt t }

/- Floating point numbers of 64 bits. -/
def double : Shape Binary64 :=
  { toDatum := .double,
    read := fun _ => Json.readFloat .double }

/- Floating point numbers of 32 bits. -/
def single : Shape Binary32 :=
  { toDatum := .single,
    read := fun _ => Json.readFloat .single }

/- Characters. -/
def char : Shape Char :=
  { toDatum := .char,
    read := fun _ => Json.readChar }

/- Strings. -/
def text : Shape String :=
  { toDatum := .text,
    read := fun _ => Json.readText }

/- Instants with an offset. -/
def moment : Shape Zoned :=
  { toDatum := .moment,
    read := fun _ => Json.readMoment }

/- Instants, whatever offset they were written with. -/
def instant : Shape Instant :=
  { toDatum := fun t => .moment t.utc,
    read := fun _ cs =>
      (Json.readMoment cs).map fun (z, r) => (z.instant, r) }

------------------------------------------------------------
-- Compounds
------------------------------------------------------------

/- A datum for a value that may be missing. -/
def optionDatum
    (s : Shape α) : Option α → Datum
  | none => .none
  | some x => .some (s.toDatum x)

/- Values that may be missing. -/
def option (s : Shape α) : Shape (Option α) :=
  { toDatum := s.optionDatum,
    read := fun budget => Json.readOption (s.read budget) }

/- Lists. -/
def list (s : Shape α) : Shape (List α) :=
  { toDatum := fun xs => .list (xs.map s.toDatum),
    read := fun budget => Json.readList (s.read (budget - 1)) }

/- Pairs. -/
def pair
    (s : Shape α)
    (t : Shape β) : Shape (α × β) :=
  { toDatum := fun (x, y) => .list [s.toDatum x, t.toDatum y],
    read := fun budget =>
      Json.readPair (s.read (budget - 1)) (t.read (budget - 1)) }

/- Maps from strings. -/
def map (s : Shape α) : Shape (Entries α) :=
  { toDatum := fun es =>
      .map (es.map fun (k, x) => (.text k, s.toDatum x)),
    read := fun budget cs =>
      (Json.readMembers (s.read (budget - 1)) cs).map
        fun (es, r) => (Entries.ofList es, r) }

/- Values of any shape. -/
def value : Shape Value :=
  { toDatum := Value.toDatum,
    read := Value.read }

end Shape

end Factbase
