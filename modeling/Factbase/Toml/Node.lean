import Factbase.Settings.Config

/-
  This file defines the tree that a TOML text builds up, line
  by line.

  A table knows how it came to be, because a text may define a
  table once only.  A table that a header merely passes through
  can still be defined, either by a header of its own or by
  dotted keys, and one that a dotted key passes through can be
  extended by dotted keys only.

  Key definitions include:
    * `Toml.Origin`
    * `Toml.Node`
    * `Toml.Node.through`
    * `Toml.Node.set`
    * `Toml.Node.define`
    * `Toml.Node.append`
    * `Toml.Node.toConfig`
-/

namespace Factbase.Toml

------------------------------------------------------------
-- Nodes
------------------------------------------------------------

/- How a table came to be. -/
inductive Origin where
  /- By a header of its own. -/
  | header
  /- By the header of a table inside it. -/
  | passed
  /- By a dotted key. -/
  | dotted
deriving DecidableEq, Repr

/- A node of the tree. -/
inductive Node where
  /- A value, closed to further keys. -/
  | value (v : Config)
  | table (origin : Origin) (entries : List (String × Node))
  /- Tables of one name, the latest first. -/
  | tables (items : List (List (String × Node)))
deriving Repr

namespace Node

/- The tree of an empty text. -/
def empty : Node :=
  .table .header []

/- The entries of a table, or of the latest of several. -/
def entries : Node → Entries Node
  | .table _ es => es
  | .tables (es :: _) => es
  | _ => []

/- The node with other entries. -/
def withEntries
    (node : Node)
    (es : Entries Node) : Node :=
  match node with
  | .table origin _ => .table origin es
  | .tables (_ :: rest) => .tables (es :: rest)
  | other => other

/- A node that has entries. -/
def isOpen : Node → Bool
  | .value _ => false
  | _ => true

------------------------------------------------------------
-- Keys
------------------------------------------------------------

/-
  The node that a dotted key passes through.  A table with a
  header of its own is closed to it.  The latest of several
  tables gets no key of its own but only tables inside it, so
  more than one part of the key has to follow.
-/
def through
    (more : Bool) : Option Node → Option Node
  | none => some (.table .dotted [])
  | some (.table .header _) => none
  | some (.table _ es) => some (.table .dotted es)
  | some (.tables items) => if more then some (.tables items) else none
  | some (.value _) => none

/- Put a value under a key that has none. -/
def set
    (v : Config) : List String → Node → Option Node
  | [], _ => none
  | [k], node =>
      match node.entries.find? k with
      | none => some
          (node.withEntries (node.entries.insert k (.value v)))
      | some _ => none
  | k :: ks, node => do
      let part ← through (1 < ks.length) (node.entries.find? k)
      let part ← set v ks part
      pure (node.withEntries (node.entries.insert k part))

------------------------------------------------------------
-- Headers
------------------------------------------------------------

/- Change what is under the last part of a header. -/
def reach
    (change : Option Node → Option Node) :
    List String → Node → Option Node
  | [], _ => none
  | [k], node => do
      let part ← change (node.entries.find? k)
      pure (node.withEntries (node.entries.insert k part))
  | k :: ks, node => do
      let part := (node.entries.find? k).getD (.table .passed [])
      if part.isOpen then
        let part ← reach change ks part
        pure (node.withEntries (node.entries.insert k part))
      else none

def define : List String → Node → Option Node :=
  reach fun
    | none => some (.table .header [])
    | some (.table .passed es) => some (.table .header es)
    | some _ => none

/- Add a table to those of one name. -/
def append : List String → Node → Option Node :=
  reach fun
    | none => some (.tables [[]])
    | some (.tables items) => some (.tables ([] :: items))
    | some _ => none

/- Put a value under a key of the table of a header. -/
def setUnder
    (v : Config)
    (key : List String) :
    List String → Node → Option Node
  | [], node => set v key node
  | k :: ks, node => do
      let part ← setUnder v key ks (← node.entries.find? k)
      pure (node.withEntries (node.entries.insert k part))

------------------------------------------------------------
-- Configuration
------------------------------------------------------------

mutual

/- The configuration of a node. -/
def toConfig : Node → Config
  | .value v => v
  | .table _ es => .table (toEntries es)
  | .tables items => .list (toItems items).reverse

/- The configuration of entries. -/
def toEntries : List (String × Node) → List (String × Config)
  | [] => []
  | (k, node) :: es => (k, toConfig node) :: toEntries es

/- The configuration of tables of one name. -/
def toItems : List (List (String × Node)) → List Config
  | [] => []
  | es :: items => .table (toEntries es) :: toItems items

end

end Node

end Factbase.Toml
