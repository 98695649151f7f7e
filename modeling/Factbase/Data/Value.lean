import Factbase.Data.Datum
import Factbase.Data.Entries
import Factbase.Json.Tree

/-
  This file defines values whose shape is only known from
  their encoding.

  The encoding carries no mark of a type.  A string that reads
  as a timestamp is one, and a whole number is an integer when
  64 bits hold it.

  Key definitions include:
    * `Value`
    * `Value.read`
    * `Value.toDatum`
    * `Value.display`
    * `Value.equals`
-/

namespace Factbase

/- A value of any shape. -/
inductive Value where
  | null
  | bool (b : Bool)
  | integer (n : Int64)
  | float (x : Binary64)
  | timestamp (t : Instant)
  | text (s : String)
  | list (vs : List Value)
  | map (entries : List (String × Value))
deriving Repr

namespace Value

------------------------------------------------------------
-- Reading
------------------------------------------------------------

/- The value of a number as read. -/
def ofNumber : Json.Number → Value
  | .natural n =>
      if n < twoTo 63 then .integer (Int64.ofNat n)
      else .float (Binary.ofNat n)
  | .negative n => .integer (Int64.ofInt (-n))
  | .float x => .float x

def ofText (s : String) : Value :=
  match Stamp.relaxed s.toList with
  | .ok z => .timestamp z.instant
  | .error _ => .text s

mutual

def ofTree : Json.Tree → Value
  | .null => .null
  | .bool b => .bool b
  | .number n => ofNumber n
  | .text s => ofText s
  | .list ts => .list (ofTrees ts)
  | .object ms => .map (Entries.ofList (ofMembers ms))

/- The values of the items of a tree. -/
def ofTrees : List Json.Tree → List Value
  | [] => []
  | t :: ts => ofTree t :: ofTrees ts

/- The values of the members of a tree. -/
def ofMembers : List (String × Json.Tree) → List (String × Value)
  | [] => []
  | (k, t) :: ms => (k, ofTree t) :: ofMembers ms

end

/- The reader of values, with a limit on their depth. -/
def read (budget : Nat) : Json.Reader Value := fun cs =>
  (Json.readTree budget cs).map fun (t, r) => (ofTree t, r)

------------------------------------------------------------
-- Encoding
------------------------------------------------------------

mutual

/- The datum that a value is encoded as. -/
def toDatum : Value → Datum
  | .null => .unit
  | .bool b => .bool b
  | .integer n => .integer n.toInt
  | .float x => .double x
  | .timestamp t => .moment t.utc
  | .text s => .text s
  | .list vs => .list (toDatums vs)
  | .map entries => .map (toPairs entries)

/- The data that values are encoded as. -/
def toDatums : List Value → List Datum
  | [] => []
  | v :: vs => toDatum v :: toDatums vs

/- The data that entries are encoded as. -/
def toPairs : List (String × Value) → List (Datum × Datum)
  | [] => []
  | (k, v) :: entries => (.text k, toDatum v) :: toPairs entries

end

------------------------------------------------------------
-- Showing
------------------------------------------------------------

mutual

/- A readable form of a value. -/
def display : Value → String
  | .null => "null"
  | .bool b => .ofList (boolText b)
  | .integer n => .ofList (Digits.writeInt n.toInt)
  | .float x => .ofList (Layout.plain.write x)
  | .timestamp t => .ofList (Stamp.shown t.utc)
  | .text s => s
  | .list vs => "[" ++ ", ".intercalate (displays vs) ++ "]"
  | .map entries =>
      "\x7b" ++ ", ".intercalate (displayEntries entries) ++ "\x7d"

/- The readable forms of items. -/
def displays : List Value → List String
  | [] => []
  | v :: vs => display v :: displays vs

/- The readable forms of entries. -/
def displayEntries : List (String × Value) → List String
  | [] => []
  | (k, v) :: entries =>
      (k ++ ": " ++ display v) :: displayEntries entries

end

------------------------------------------------------------
-- Views
------------------------------------------------------------

def asText? : Value → Option String
  | .text s => some s
  | _ => none

def asInteger? : Value → Option Int64
  | .integer n => some n
  | _ => none

/- The number of a float, or the one nearest to an integer. -/
def asFloat? : Value → Option Binary64
  | .float x => some x
  | .integer n => some (Binary.ofInt n.toInt)
  | _ => none

/- The truth value of a truth value. -/
def asBool? : Value → Option Bool
  | .bool b => some b
  | _ => none

def asTimestamp? : Value → Option Instant
  | .timestamp t => some t
  | _ => none

------------------------------------------------------------
-- Equality
------------------------------------------------------------

mutual

/-
  Equality of values, with that of numbers at the leaves: what
  is no number differs from itself, and zeros of both signs
  are equal.
-/
def equals : Value → Value → Bool
  | .null, .null => true
  | .bool a, .bool b => a = b
  | .integer a, .integer b => a = b
  | .float a, .float b => a.equals b
  | .timestamp a, .timestamp b => a = b
  | .text a, .text b => a = b
  | .list as, .list bs => equalLists as bs
  | .map as, .map bs => equalEntries as bs
  | _, _ => false

/- Equality of items, one by one. -/
def equalLists : List Value → List Value → Bool
  | [], [] => true
  | a :: as, b :: bs => equals a b && equalLists as bs
  | _, _ => false

/- Equality of entries, one by one. -/
def equalEntries :
    List (String × Value) → List (String × Value) → Bool
  | [], [] => true
  | (j, a) :: as, (k, b) :: bs =>
      j = k && equals a b && equalEntries as bs
  | _, _ => false

end

end Value

end Factbase
