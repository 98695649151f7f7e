import Factbase.Query.Descriptor
import Factbase.Query.Sql

/-
  This file defines how queries are compiled to statements.

  Every condition of a query becomes a test with its arguments.
  Required tests come before excluded ones, because set
  operators combine from left to right.

  Key definitions include:
    * `BoundTest`
    * `candidates`
    * `Query.statement`
    * `Query.compile`
    * `Query.compileExists`
-/

namespace Factbase

------------------------------------------------------------
-- Compilation of conditions
------------------------------------------------------------

/- A test with its arguments. -/
abbrev BoundTest :=
  Test × List Arg

def Clause.test (c : Clause) : BoundTest :=
  (.equals, [.text c.predicate, .text c.value])

/- The test that there is any value for a predicate. -/
def hasTest (predicate : String) : BoundTest :=
  (.has, [.text predicate])

/- The test of a primary condition. -/
def Primary.test : Primary → BoundTest
  | .equals c => c.test
  | .begins predicate start =>
      (.begins,
        [.text predicate, .integer start.length, .text start])

def rangeTest
    (predicate : String)
    (threshold : Option String)
    (direction : Direction) : BoundTest :=
  match threshold with
  | none => hasTest predicate
  | some v => (.beyond direction, [.text predicate, .text v])

/- The set of the subjects that pass the first test, all of
   those required and none of those excluded. -/
def candidates
    (first : BoundTest)
    (required excluded : List BoundTest) :
    Compound × List Arg :=
  (⟨first.1,
    required.map (fun t => (.intersect, t.1))
      ++ excluded.map (fun t => (.except, t.1))⟩,
    first.2 ++ required.flatMap Prod.snd
      ++ excluded.flatMap Prod.snd)

------------------------------------------------------------
-- Compilation of queries
------------------------------------------------------------

def AboutQuery.statement (q : AboutQuery) : Statement :=
  match q.wheres with
  | [] => ⟨.about, [.text q.subject]⟩
  | c :: cs =>
      let (set, args) := candidates c.test (cs.map Clause.test) []
      ⟨.aboutAmong set, args ++ [.text q.subject]⟩

/- The statement of a query by conditions. -/
def MatchQuery.statement (q : MatchQuery) : Statement :=
  let (set, args) := candidates q.primary.test
    (q.wheres.map Clause.test ++ q.has.map hasTest)
    (q.without.map hasTest)
  ⟨.among set, args⟩

/- The statement of an ordered scan. -/
def scan
    (predicate : String)
    (threshold : Option String)
    (direction : Direction)
    (limit : Option Nat)
    (wheres : List Clause)
    (without : List String) : Statement :=
  let test := rangeTest predicate threshold direction
  let (set, args) := candidates test
    (wheres.map Clause.test) (without.map hasTest)
  ⟨.ranked set ⟨test.1, direction, limit.isSome⟩,
    args ++ test.2 ++ (limit.map Arg.integer).toList⟩

namespace Query

def statement : Query → Statement
  | .all => ⟨.everything, []⟩
  | .about q => q.statement
  | .matching q => q.statement
  | .range q =>
      scan q.predicate (some q.threshold) q.direction q.limit
        q.wheres q.without
  | .order q =>
      scan q.predicate none q.direction none q.wheres q.without

/- The SQL that yields the triples of a query. -/
def compile
    (q : Query)
    (collection : String) : CompiledQuery :=
  q.statement.compile collection

/- The SQL that yields whether there are any triples. -/
def compileExists
    (q : Query)
    (collection : String) : CompiledQuery :=
  q.statement.compileExists collection

end Query

end Factbase
