import Factbase.Query.Template

/-
  This file defines the content of a database: the tables that
  hold collections, and the indexes on their values.

  Tables and indexes share one space of names, in which the
  case of ASCII letters does not count.  An index holds nothing
  of its own, so only its name is kept, with that of its table.

  Key definitions include:
    * `Database`
    * `validateCollection`
    * `Database.createTable`
    * `Database.createIndex`
    * `Database.dropTable`
    * `Database.rows`
    * `Database.setRows`
    * `Database.prepare`
-/

namespace Factbase

------------------------------------------------------------
-- Names
------------------------------------------------------------

/- A name without regard to the case of ASCII letters. -/
def foldName (name : String) : String :=
  name.map Char.toLower

/- The names that the database keeps for itself. -/
def isReserved (name : String) : Bool :=
  "sqlite_".toList.isPrefixOf (foldName name).toList

/- A character that may start a plain identifier. -/
def startsIdentifier (c : Char) : Bool :=
  c.isAlpha || c = '_'

/- A plain identifier. -/
def isIdentifier (name : String) : Bool :=
  match name.toList with
  | [] => false
  | c :: cs =>
      startsIdentifier c &&
        cs.all fun c => startsIdentifier c || c.isDigit

/-
  The names that collections may have: plain identifiers that
  the database does not keep for itself.
-/
def validateCollection (name : String) : Except StoreError Unit :=
  if isIdentifier name && !isReserved name then .ok ()
  else .error (.invalidCollection name)

/- The name of the index on the values of a collection. -/
def indexName (collection : String) : String :=
  collection ++ "_predicate_value"

------------------------------------------------------------
-- Databases
------------------------------------------------------------

/- Tables with their rows, and indexes with their tables. -/
structure Database where
  tables : List (String × List Row)
  indexes : List (String × String)
deriving DecidableEq, Repr

namespace Database

/- A database without tables. -/
def empty : Database :=
  ⟨[], []⟩

/- The rows of a table. -/
def rows?
    (db : Database)
    (name : String) : Option (List Row) :=
  db.tables.lookup (foldName name)

/- There is a table of a name. -/
def hasTable
    (db : Database)
    (name : String) : Bool :=
  (db.rows? name).isSome

/- There is an index of a name. -/
def hasIndex
    (db : Database)
    (name : String) : Bool :=
  (db.indexes.lookup (foldName name)).isSome

------------------------------------------------------------
-- Tables and indexes
------------------------------------------------------------

/- Make a table, unless there is one. -/
def createTable
    (db : Database)
    (name : String) : Except EngineFault Database :=
  if isReserved name then .error (.reservedName name)
  else if db.hasTable name then .ok db
  else if db.hasIndex name then .error (.indexExists name)
  else .ok { db with tables := (foldName name, []) :: db.tables }

/- Make the index of a table, unless there is one. -/
def createIndex
    (db : Database)
    (table : String) : Except EngineFault Database :=
  let name := indexName table
  if isReserved name then .error (.reservedName name)
  else if db.hasTable name then .error (.tableExists name)
  else if db.hasIndex name then .ok db
  else .ok { db with
    indexes := (foldName name, foldName table) :: db.indexes }

/- Remove a table and its indexes. -/
def dropTable
    (db : Database)
    (name : String) : Except EngineFault Database :=
  if db.hasTable name then
    .ok {
      tables := db.tables.filter fun t => t.1 ≠ foldName name,
      indexes := db.indexes.filter fun i => i.2 ≠ foldName name }
  else .error (.noTable name)

------------------------------------------------------------
-- Rows
------------------------------------------------------------

def rows
    (db : Database)
    (collection : String) : Except EngineFault (List Row) :=
  match db.rows? collection with
  | some rows => .ok rows
  | none => .error (.noTable collection)

/- Replace the rows of a table. -/
def setRows
    (db : Database)
    (name : String)
    (rows : List Row) : Database :=
  { db with
    tables := db.tables.map fun (n, old) =>
      (n, if n = foldName name then rows else old) }

def alter
    (db : Database)
    (collection : String)
    (change : List Row → List Row) :
    Except EngineFault Database :=
  (db.rows collection).map fun rows =>
    db.setRows collection (change rows)

------------------------------------------------------------
-- Preparation
------------------------------------------------------------

/- The most arguments that one statement may take. -/
def mostParameters : Nat :=
  32766

/- The most sets that one statement may combine. -/
def mostTerms : Nat :=
  500

/-
  The rows that a statement is run on.  Its set may not take too
  many arguments, which are counted as they are read, nor combine
  too many sets, which are counted at its end, before any other
  argument.  The collection may not have a name that the
  statement gives to a set of its own.
-/
def prepare
    (db : Database)
    (collection : String)
    (t : Template) : Except EngineFault (List Row) :=
  let name := foldName collection
  if mostParameters < t.parameters then .error .tooManyVariables
  else if mostTerms < t.terms then .error .tooManyTerms
  else if name ∈ t.names then .error (.circularReference name)
  else db.rows collection

end Database

end Factbase
