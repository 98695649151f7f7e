import Factbase.Grouping
import Factbase.Query.Compile
import Factbase.Store.Connection

/-
  This file defines stores: the triples of one collection, read
  and written on a connection.

  Key definitions include:
    * `openStore`
    * `Store.set`
    * `Store.setMany`
    * `Store.setProperties`
    * `Store.deleteValue`
    * `Store.deletePredicate`
    * `Store.deleteSubject`
    * `Store.get`
    * `Store.list`
    * `Store.any`
-/

namespace Factbase

------------------------------------------------------------
-- Stores
------------------------------------------------------------

/- The triples of one collection. -/
structure Store where
  collection : String
deriving DecidableEq, Repr

/- Prepare a collection on a connection. -/
def openStore (collection : String) : Action Store := do
  Action.migrate collection
  pure ⟨collection⟩

namespace Store

def alter
    (s : Store)
    (change : List Row → List Row) : Action Unit :=
  Action.change (·.alter s.collection change)

def rows (s : Store) : Action (List Row) := do
  Action.execute ((← Action.content).rows s.collection)

/- Add a row as it is. -/
def insert
    (s : Store)
    (row : Row) : Action Unit :=
  s.alter (Row.upsert row)

------------------------------------------------------------
-- Writes
------------------------------------------------------------

/-
  Add a value for a subject and a predicate.  Values that are
  there are kept, and a value is there at most once.
-/
def set
    (s : Store)
    (subject predicate : String)
    (d : Datum) : Action Unit := do
  let t ← Action.lift (Triple.encoding subject predicate d)
  s.insert t.row

/- Add several values of one predicate, one after another. -/
def setEach
    (s : Store)
    (subject predicate : String) : List Datum → Action Unit
  | [] => pure ()
  | d :: ds => do
      s.set subject predicate d
      s.setEach subject predicate ds

/- Add values of several predicates, one after another. -/
def setEachProperty
    (s : Store)
    (subject : String) :
    List (String × List Datum) → Action Unit
  | [] => pure ()
  | (predicate, ds) :: properties => do
      s.setEach subject predicate ds
      s.setEachProperty subject properties

/- Fail if the collection is not there. -/
def ensure (s : Store) : Action Unit := do
  let _ ← s.rows

/- Add several values of one predicate, all or none of them. -/
def setMany
    (s : Store)
    (subject predicate : String)
    (ds : List Datum) : Action Unit :=
  if ds.isEmpty then pure ()
  else Action.batch do
    s.ensure
    s.setEach subject predicate ds

/- Add values of several predicates, all or none of them. -/
def setProperties
    (s : Store)
    (subject : String)
    (properties : List (String × List Datum)) : Action Unit :=
  Action.batch do
    s.ensure
    s.setEachProperty subject properties

/- Remove one triple, if it is there. -/
def deleteValue
    (s : Store)
    (subject predicate : String)
    (d : Datum) : Action Unit := do
  let t ← Action.lift (Triple.encoding subject predicate d)
  s.alter (Row.delete fun r => r = t.row)

/- Remove all values for a subject and a predicate. -/
def deletePredicate
    (s : Store)
    (subject predicate : String) : Action Unit :=
  s.alter (Row.delete fun r =>
    r.subject = subject && r.predicate = predicate)

/- Remove all triples of a subject. -/
def deleteSubject
    (s : Store)
    (subject : String) : Action Unit :=
  s.alter (Row.delete fun r => r.subject = subject)

------------------------------------------------------------
-- Reads
------------------------------------------------------------

/-
  The triple of a subject and a predicate, of several the one
  with the least encoded value.
-/
def get?
    (s : Store)
    (subject predicate : String) : Action (Option Triple) := do
  let own := (← s.rows).filter fun r =>
    r.subject = subject && r.predicate = predicate
  Action.execute ((Row.least? own).mapM Row.read)

/- The rows that a query is run on. -/
def prepare
    (s : Store)
    (q : Query) : Action (List Row) := do
  let db ← Action.content
  Action.execute (db.prepare s.collection q.statement.template)

/- The triples of a query, in the order that it defines. -/
def list
    (s : Store)
    (q : Query) : Action (List Triple) := do
  let found := q.statement.list (← s.prepare q)
  Action.execute (Row.readAll found)

/- Whether a query finds anything. -/
def any
    (s : Store)
    (q : Query) : Action Bool := do
  pure (q.statement.any (← s.prepare q))

/- The groups of the triples of a query. -/
def group
    (s : Store)
    (q : Query) : Action Grouping := do
  Action.lift (grouped (← s.list q))

end Store

end Factbase
