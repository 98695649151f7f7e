import Factbase.Query.Template

/-
  This file defines the SQL text of a statement over one
  collection.

  The text is composed from sets of distinct subjects, their
  intersections and differences, an ordered range over the
  values of one predicate, and a join of the collection with
  the subjects found.  Of what callers supply, only the name
  of the collection stands in the text, as a quoted identifier;
  every literal is an argument.

  Key definitions include:
    * `Sql.quoteIdentifier`
    * `CompiledQuery`
    * `Statement.compile`
    * `Statement.compileExists`
-/

namespace Factbase

namespace Sql

------------------------------------------------------------
-- Identifiers
------------------------------------------------------------

/- A character as it stands in a quoted identifier. -/
def escapeQuote (c : Char) : List Char :=
  if c = '"' then ['"', '"'] else [c]

/- A name as a quoted identifier. -/
def quoteIdentifier (name : String) : String :=
  .ofList ('"' :: name.toList.flatMap escapeQuote ++ ['"'])

------------------------------------------------------------
-- Tests
------------------------------------------------------------

/- The sign of a comparison in a direction. -/
def comparison : Direction → String
  | .ascending => ">"
  | .descending => "<"

/- The aggregate that gives the value nearest to the start. -/
def aggregate : Direction → String
  | .ascending => "MIN"
  | .descending => "MAX"

/- The word for a direction. -/
def order : Direction → String
  | .ascending => "ASC"
  | .descending => "DESC"

/- The condition of a test on the columns of a table. -/
def condition
    (table : String) : Test → String
  | .has => table ++ "predicate = ?"
  | .equals =>
      table ++ "predicate = ? AND " ++ table ++ "value = ?"
  | .begins =>
      table ++ "predicate = ? AND substr(" ++ table
        ++ "value, 1, ?) = ?"
  | .beyond d =>
      table ++ "predicate = ? AND " ++ table ++ "value "
        ++ comparison d ++ " ?"

------------------------------------------------------------
-- Sets of subjects
------------------------------------------------------------

/- The distinct subjects that pass a test. -/
def distinct
    (table : String)
    (t : Test) : String :=
  "SELECT DISTINCT subject FROM " ++ table ++ " WHERE "
    ++ condition "" t

/- The word for a set operator. -/
def operator : SetOperator → String
  | .intersect => " INTERSECT "
  | .except => " EXCEPT "

/- Sets combined with those before them. -/
def combined
    (table : String) : List (SetOperator × Test) → String
  | [] => ""
  | (op, t) :: rest =>
      operator op ++ distinct table t ++ combined table rest

/- The set of subjects that a statement starts from. -/
def candidates
    (table : String)
    (c : Compound) : String :=
  "WITH candidates(found) AS ( " ++ distinct table c.first
    ++ combined table c.rest ++ " )"

/- The ranking of the candidates. -/
def ranking
    (table : String)
    (k : Ranking) : String :=
  "ordered_subjects(found, ordering) AS ( "
    ++ "SELECT t.subject AS found, " ++ aggregate k.direction
    ++ "(t.value) AS ordering FROM " ++ table ++ " AS t "
    ++ "INNER JOIN candidates ON t.subject = candidates.found "
    ++ "WHERE " ++ condition "t." k.test
    ++ " GROUP BY t.subject ORDER BY ordering "
    ++ order k.direction ++ ", found ASC"
    ++ (if k.limited then " LIMIT ?" else "") ++ " )"

------------------------------------------------------------
-- Statements
------------------------------------------------------------

/- The rows of a table under a short name. -/
def joinedRows (table : String) : String :=
  "SELECT t.subject, t.predicate, t.value FROM " ++ table
    ++ " AS t "

/- The text that yields the rows of a template. -/
def rows
    (table : String) : Template → String
  | .everything =>
      "SELECT subject, predicate, value FROM " ++ table
        ++ " ORDER BY subject, predicate, value"
  | .about =>
      "SELECT subject, predicate, value FROM " ++ table
        ++ " WHERE subject = ? ORDER BY predicate, value"
  | .aboutAmong c =>
      candidates table c ++ " " ++ joinedRows table
        ++ "INNER JOIN candidates ON t.subject = candidates.found "
        ++ "WHERE t.subject = ? ORDER BY t.predicate, t.value"
  | .among c =>
      candidates table c ++ " " ++ joinedRows table
        ++ "INNER JOIN candidates ON t.subject = candidates.found "
        ++ "ORDER BY t.subject, t.predicate, t.value"
  | .ranked c k =>
      candidates table c ++ ", " ++ ranking table k ++ " "
        ++ joinedRows table
        ++ "INNER JOIN ordered_subjects "
        ++ "ON t.subject = ordered_subjects.found "
        ++ "ORDER BY ordered_subjects.ordering "
        ++ order k.direction ++ ", t.subject, t.predicate, t.value"

/- The text that tells whether a template finds anything. -/
def exist
    (table : String) : Template → String
  | .everything =>
      "SELECT EXISTS (SELECT 1 FROM " ++ table ++ ")"
  | .about =>
      "SELECT EXISTS (SELECT 1 FROM " ++ table
        ++ " WHERE subject = ?)"
  | .aboutAmong c =>
      candidates table c ++ " SELECT EXISTS ("
        ++ "SELECT 1 FROM candidates WHERE candidates.found = ?)"
  | .among c =>
      candidates table c ++ " SELECT EXISTS ("
        ++ "SELECT 1 FROM candidates)"
  | .ranked c k =>
      candidates table c ++ ", " ++ ranking table k
        ++ " SELECT EXISTS (SELECT 1 FROM ordered_subjects)"

end Sql

/- The text of a statement and its arguments. -/
structure CompiledQuery where
  sql : String
  args : List Arg
deriving DecidableEq, Repr

namespace Statement

/- The statement that yields the rows. -/
def compile
    (q : Statement)
    (collection : String) : CompiledQuery :=
  ⟨Sql.rows (Sql.quoteIdentifier collection) q.template, q.args⟩

/- The statement that yields whether there are any rows. -/
def compileExists
    (q : Statement)
    (collection : String) : CompiledQuery :=
  ⟨Sql.exist (Sql.quoteIdentifier collection) q.template, q.args⟩

end Statement

end Factbase
