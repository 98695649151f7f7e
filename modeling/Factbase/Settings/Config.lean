import Factbase.Data.IntType
import Factbase.Data.Value

/-
  This file defines configuration trees and how a later source
  of configuration is merged into earlier ones.

  Tables are merged leaf by leaf.  Any other value replaces
  what was there before.

  Key definitions include:
    * `Config`
    * `Config.merged`
    * `KeyPath`
    * `KeyPath.parse?`
    * `Config.putAt`
    * `Config.text?`
-/

namespace Factbase

------------------------------------------------------------
-- Trees
------------------------------------------------------------

/- A configuration tree. -/
inductive Config where
  | null
  | bool (b : Bool)
  | integer (n : Int)
  | float (x : Binary64)
  | text (s : String)
  | list (items : List Config)
  | table (entries : List (String × Config))
deriving Repr

namespace Config

/- The entries of a table; other values have none. -/
def entries : Config → Entries Config
  | .table es => es
  | _ => []

/- The items of a list; other values have none. -/
def items : Config → List Config
  | .list xs => xs
  | _ => []

/- A scalar as text. -/
def text? : Config → Option String
  | .bool b => some (.ofList (boolText b))
  | .integer n => some (.ofList (Digits.writeInt n))
  | .float x => some (.ofList (Layout.plain.write x))
  | .text s => some s
  | _ => none

------------------------------------------------------------
-- Parts
------------------------------------------------------------

/- Change the entry of a key.  What is no table becomes one. -/
def alterEntry
    (tree : Config)
    (key : String)
    (change : Config → Config) : Config :=
  let old := (tree.entries.find? key).getD .null
  .table (tree.entries.insert key (change old))

/-
  Change an item of a list.  What is no list becomes one.  An
  index below zero counts from the end.  Where the index lies
  outside the list, nulls fill it up to there, at its end or at
  its front.
-/
def alterItem
    (tree : Config)
    (index : Int)
    (change : Config → Config) : Config :=
  let items := tree.items
  let length := items.length
  if 0 ≤ index then
    let missing := index.toNat + 1 - length
    .list ((items ++ List.replicate missing null).modify
      index.toNat change)
  else
    let missing := index.natAbs - length
    .list ((List.replicate missing null ++ items).modify
      (length - index.natAbs) change)

------------------------------------------------------------
-- Merging
------------------------------------------------------------

mutual

/- A part of a tree after a value is merged into it. -/
def merged
    (part : Config) : Config → Config
  | .table es =>
      mergedAll (if part matches .null then .table [] else part) es
  | v => v

/- A part of a tree after entries are merged into it in turn. -/
def mergedAll
    (part : Config) : List (String × Config) → Config
  | [] => part
  | (k, v) :: es => mergedAll (part.alterEntry k fun old => merged old v) es

end

end Config

------------------------------------------------------------
-- Paths
------------------------------------------------------------

/- A step from a value to one of its parts. -/
inductive KeyStep where
  | child (name : String)
  /- An item; those below zero are counted from the end. -/
  | item (index : Int)
deriving DecidableEq, Repr

/- The way from the whole tree to one of its parts. -/
structure KeyPath where
  root : String
  steps : List KeyStep
deriving DecidableEq, Repr

namespace KeyPath

/- The characters of a plain name. -/
def isNameChar (c : Char) : Bool :=
  c.isAlphanum || c = '_' || c = '-'

/- The plain name at the front of a text. -/
def name? (cs : List Char) : Option (String × List Char) :=
  match cs.takeWhile isNameChar with
  | [] => none
  | name => some (.ofList name, cs.dropWhile isNameChar)

/- The characters that may stand around an index. -/
def isSpace (c : Char) : Bool :=
  c = ' ' || c = '\t'

/- The integer of 64 bits at the front of a text. -/
def index? (cs : List Char) : Option (Int × List Char) :=
  let (minus, r) := match cs.dropWhile isSpace with
    | '-' :: r => (true, r)
    | r => (false, r)
  match r.takeWhile Char.isDigit with
  | [] => none
  | ds =>
      let n : Int := Digits.value ds
      let index := if minus then -n else n
      if IntType.i64.holds index then
        some (index, (r.dropWhile Char.isDigit).dropWhile isSpace)
      else none

/- The steps after the root, each of one character or more. -/
def steps? : Nat → List Char → Option (List KeyStep)
  | _, [] => some []
  | 0, _ => none
  | fuel + 1, '.' :: r => do
      let (name, r) ← name? r
      pure (.child name :: (← steps? fuel r))
  | fuel + 1, '[' :: r => do
      let (index, r) ← index? r
      match r with
      | ']' :: r => pure (.item index :: (← steps? fuel r))
      | _ => none
  | _, _ => none

/- The path that a text spells. -/
def parse? (s : String) : Option KeyPath := do
  let (root, r) ← name? s.toList
  pure ⟨root, ← steps? r.length r⟩

end KeyPath

namespace Config

/- Change the part that some steps lead to. -/
def alterAt
    (change : Config → Config) :
    List KeyStep → Config → Config
  | [], tree => change tree
  | .child name :: steps, tree =>
      tree.alterEntry name (alterAt change steps)
  | .item index :: steps, tree =>
      tree.alterItem index (alterAt change steps)

/- Merge a value into the part that a path leads to. -/
def putAt
    (tree : Config)
    (path : KeyPath)
    (value : Config) : Config :=
  alterAt (fun part => merged part value)
    (.child path.root :: path.steps) tree

/-
  Merge a value under a key of the whole tree.  The key may
  spell a path; one that does not is a plain key.
-/
def putKey
    (tree : Config)
    (key : String)
    (value : Config) : Config :=
  tree.putAt ((KeyPath.parse? key).getD ⟨key, []⟩) value

/- Merge a source of keys and values. -/
def merge
    (tree : Config)
    (source : List (String × Config)) : Config :=
  source.foldl (fun tree (key, value) => tree.putKey key value)
    tree

end Config

end Factbase
