import Factbase.Toml.Node
import Factbase.Toml.Scalar

/-
  This file defines the reader of whole TOML texts.

  Key definitions include:
    * `Toml.readValue`
    * `Toml.readLineOf`
    * `Toml.read`
-/

namespace Factbase.Toml

------------------------------------------------------------
-- Values
------------------------------------------------------------

mutual

/- A value, with at most some lists and tables around its parts. -/
def readValueWithin :
    Nat → Nat → List Char → Option (Config × List Char)
  | 0, _, _ => none
  | fuel + 1, depth, cs =>
      match cs, depth with
      | '"' :: _, _ | '\x27' :: _, _ =>
          (readString cs).map fun (s, r) => (.text (.ofList s), r)
      | '[' :: _, 0 | '{' :: _, 0 => none
      | '[' :: r, depth + 1 =>
          (readItems fuel depth (skipLines r)).map fun (vs, r) =>
            (.list vs, r)
      | '{' :: r, depth + 1 =>
          (readPairs fuel depth (.table .dotted []) r).map
            fun (node, r) => (node.toConfig, r)
      | _, _ => readScalarValue cs

/- The items of a list from one on, and the closing bracket. -/
def readItems :
    Nat → Nat → List Char → Option (List Config × List Char)
  | 0, _, _ => none
  | fuel + 1, depth, cs =>
      match cs with
      | ']' :: r => some ([], r)
      | r => do
          let (v, r) ← readValueWithin fuel depth r
          match skipLines r with
          | ']' :: r => pure ([v], r)
          | ',' :: r => do
              let (vs, r) ← readItems fuel depth (skipLines r)
              pure (v :: vs, r)
          | _ => none

/-
  The pairs of an inline table from one on, and its end.  Lines
  may end between any two words but not inside a key.
-/
def readPairs :
    Nat → Nat → Node → List Char → Option (Node × List Char)
  | 0, _, _, _ => none
  | fuel + 1, depth, node, cs =>
      match skipLines cs with
      | '}' :: r => some (node, r)
      | r => do
          let (key, r) ← readKey r
          let '=' :: r := skipLines r | none
          let (v, r) ← readValueWithin fuel depth (skipLines r)
          let node ← node.set v key
          match skipLines r with
          | '}' :: r => pure (node, r)
          | ',' :: r => readPairs fuel depth node r
          | _ => none

end

/- A value; each round passes a character or opens a list. -/
def readValue (cs : List Char) : Option (Config × List Char) :=
  readValueWithin (2 * cs.length + 2) deepest cs

------------------------------------------------------------
-- Lines
------------------------------------------------------------

/- The tree so far, and the header that keys belong to. -/
structure Progress where
  root : Node
  header : List String
deriving Repr

/- A header up to its closing brackets. -/
def readHeader
    (closing : List Char)
    (cs : List Char) : Option (List String × List Char) := do
  let (key, r) ← readKey cs
  if closing.isPrefixOf r then pure (key, r.drop closing.length)
  else none

/- One line that is not empty, with its end. -/
def readLineOf
    (p : Progress)
    (cs : List Char) : Option (Progress × List Char) :=
  match cs with
  | '[' :: '[' :: r => do
      let (key, r) ← readHeader [']', ']'] r
      pure (⟨← p.root.append key, key⟩, ← endLine r)
  | '[' :: r => do
      let (key, r) ← readHeader [']'] r
      pure (⟨← p.root.define key, key⟩, ← endLine r)
  | r => do
      let (key, r) ← readKey r
      let '=' :: r := r | none
      let (v, r) ← readValue (skipBlank r)
      let root ← p.root.setUnder v key p.header
      pure ({ p with root := root }, ← endLine r)

/- The lines of a text; each takes a character. -/
def readLinesWithin :
    Nat → Progress → List Char → Option Progress
  | 0, _, _ => none
  | fuel + 1, p, cs =>
      match skipLines cs with
      | [] => some p
      | r => do
          let (p, r) ← readLineOf p r
          readLinesWithin fuel p r

------------------------------------------------------------
-- Dates
------------------------------------------------------------

mutual

/-
  A value in which dates and times are texts.  They are the
  tables whose first key marks them, so a text may spell one as
  such a table too.
-/
def withDates : Config → Option Config
  | .table ((key, v) :: es) =>
      if key = dateKey then
        match v with
        | .text s =>
            (dateTime? s.toList).map fun cs => .text (.ofList cs)
        | _ => none
      else do
        let v ← withDates v
        pure (.table ((key, v) :: (← entriesWithDates es)))
  | .list vs => (itemsWithDates vs).map .list
  | v => some v

/- Entries in which dates and times are texts. -/
def entriesWithDates :
    List (String × Config) → Option (List (String × Config))
  | [] => some []
  | (key, v) :: es => do
      let v ← withDates v
      pure ((key, v) :: (← entriesWithDates es))

/- Items in which dates and times are texts. -/
def itemsWithDates : List Config → Option (List Config)
  | [] => some []
  | v :: vs => do
      let v ← withDates v
      pure (v :: (← itemsWithDates vs))

end

------------------------------------------------------------
-- Texts
------------------------------------------------------------

/- A text without the byte order mark that it may start with. -/
def dropMark (cs : List Char) : List Char :=
  match cs with
  | c :: r => if c = '\ufeff' then r else cs
  | [] => []

/- The table that a text defines. -/
def read (text : String) : Option (List (String × Config)) := do
  let cs := dropMark text.toList
  let p ← readLinesWithin (cs.length + 1) ⟨.empty, []⟩ cs
  match ← withDates p.root.toConfig with
  | .table entries => pure entries
  | _ => none

end Factbase.Toml
