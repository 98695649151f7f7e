import Factbase.Query.Sql
import Factbase.Store.Database

/-
  This file defines the SQL text of the statements that make a
  collection, change it, and read one value of it.

  Names of collections are plain identifiers, so the text that
  makes a collection puts them between quotes as they are.  All
  other texts quote them as queries do.

  Key definitions include:
    * `Sql.migrate`
    * `Sql.upsert`
    * `Sql.deleteValue`
    * `Sql.deletePredicate`
    * `Sql.deleteSubject`
    * `Sql.get`
-/

namespace Factbase.Sql

------------------------------------------------------------
-- Collections
------------------------------------------------------------

/- A name between quotes, as it is. -/
def betweenQuotes (name : String) : String :=
  "\"" ++ name ++ "\""

/- The name of the constraint that keeps triples distinct. -/
def constraintName (collection : String) : String :=
  "unique_" ++ collection ++ "_triple"

/-
  Make the table of a collection and the index on its values,
  unless they are there: two statements that are run as one text.
-/
def migrate (collection : String) : String :=
  "\n        create table if not exists " ++ betweenQuotes collection
    ++ " (\n            subject text not null,"
    ++ "\n            predicate text not null,"
    ++ "\n            value text not null,"
    ++ "\n            constraint " ++ constraintName collection
    ++ " primary key (\n                subject,"
    ++ "\n                predicate,\n                value"
    ++ "\n            )\n        );"
    ++ "\n        create index if not exists "
    ++ betweenQuotes (indexName collection) ++ " on "
    ++ betweenQuotes collection
    ++ " (\n            predicate,\n            value\n        );"
    ++ "\n        "

------------------------------------------------------------
-- Writes
------------------------------------------------------------

/- Add a triple. -/
def upsert (collection : String) : String :=
  "insert or replace into " ++ quoteIdentifier collection
    ++ " (subject, predicate, value) values (?1, ?2, ?3)"

/- Remove a triple. -/
def deleteValue (collection : String) : String :=
  "delete from " ++ quoteIdentifier collection
    ++ " where subject = ?1 and predicate = ?2 and value = ?3"

/- Remove the values of a subject and a predicate. -/
def deletePredicate (collection : String) : String :=
  "delete from " ++ quoteIdentifier collection
    ++ " where subject = ?1 and predicate = ?2"

/- Remove the triples of a subject. -/
def deleteSubject (collection : String) : String :=
  "delete from " ++ quoteIdentifier collection
    ++ " where subject = ?1"

/- Read the least value of a subject and a predicate. -/
def get (collection : String) : String :=
  "select subject, predicate, value from "
    ++ quoteIdentifier collection
    ++ " where subject = ?1 and predicate = ?2 "
    ++ "order by value limit 1"

end Factbase.Sql
