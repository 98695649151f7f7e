import Factbase.Query.Template

/-
  This file defines the queries that callers describe.

  A description is built with one of the constructors `about`,
  `whereEq`, `begins`, `after`, `before`, `ascending` and
  `descending`, and narrowed step by step.  A step that takes
  a datum encodes it on the spot, so a datum that cannot be
  encoded fails the step and never widens the query.

  Key definitions include:
    * `Clause`
    * `AboutQuery`
    * `MatchQuery`
    * `RangeQuery`
    * `OrderQuery`
    * `Query`
-/

namespace Factbase

------------------------------------------------------------
-- Clauses
------------------------------------------------------------

/- The condition that a predicate has a value. -/
structure Clause where
  predicate : String
  value : String
deriving DecidableEq, Repr

/- The condition that a predicate has a datum. -/
def Clause.encoding
    (predicate : String)
    (d : Datum) : Except StoreError Clause := do
  .ok ⟨predicate, ← encode d⟩

/- The condition that a query of subjects starts from. -/
inductive Primary where
  | equals (c : Clause)
  /- The value is a string with a start, which is encoded. -/
  | begins (predicate start : String)
deriving DecidableEq, Repr

------------------------------------------------------------
-- One subject
------------------------------------------------------------

/- All triples of one subject, if it meets all clauses. -/
structure AboutQuery where
  subject : String
  wheres : List Clause
deriving DecidableEq, Repr

/- All triples of a subject. -/
def about (subject : String) : AboutQuery :=
  ⟨subject, []⟩

/- Only if the subject also has a datum for a predicate. -/
def AboutQuery.whereEq
    (q : AboutQuery)
    (predicate : String)
    (d : Datum) : Except StoreError AboutQuery := do
  .ok { q with wheres := q.wheres ++ [← Clause.encoding predicate d] }

------------------------------------------------------------
-- Subjects that meet conditions
------------------------------------------------------------

/- All triples of the subjects that meet all conditions. -/
structure MatchQuery where
  primary : Primary
  wheres : List Clause
  has : List String
  without : List String
deriving DecidableEq, Repr

/- Subjects that have a datum for a predicate. -/
def whereEq
    (predicate : String)
    (d : Datum) : Except StoreError MatchQuery := do
  .ok ⟨.equals (← Clause.encoding predicate d), [], [], []⟩

/- Subjects that have a string with a given start. -/
def begins (predicate start : String) : MatchQuery :=
  ⟨.begins predicate (encodePrefix start), [], [], []⟩

namespace MatchQuery

/- Also require a datum for a predicate. -/
def whereEq
    (q : MatchQuery)
    (predicate : String)
    (d : Datum) : Except StoreError MatchQuery := do
  .ok { q with wheres := q.wheres ++ [← Clause.encoding predicate d] }

/- Also require any value for a predicate. -/
def having
    (q : MatchQuery)
    (predicate : String) : MatchQuery :=
  { q with has := q.has ++ [predicate] }

/- Drop the subjects that have any value for a predicate. -/
def lacking
    (q : MatchQuery)
    (predicate : String) : MatchQuery :=
  { q with without := q.without ++ [predicate] }

end MatchQuery

------------------------------------------------------------
-- Subjects in a range of values
------------------------------------------------------------

/-
  All triples of the subjects that have a value for a predicate
  beyond a threshold, in the order of those values.
-/
structure RangeQuery where
  predicate : String
  threshold : String
  direction : Direction
  limit : Option Nat
  wheres : List Clause
  without : List String
deriving DecidableEq, Repr

namespace RangeQuery

/- The range beyond a datum. -/
def beyond
    (direction : Direction)
    (predicate : String)
    (d : Datum) : Except StoreError RangeQuery := do
  .ok ⟨predicate, ← encode d, direction, none, [], []⟩

/- The greatest limit that the database takes. -/
def greatestLimit : Nat :=
  twoTo 63 - 1

/- Only the first subjects of the range. -/
def first
    (q : RangeQuery)
    (count : Nat) : RangeQuery :=
  { q with limit := some (min count greatestLimit) }

/- Only subjects that also have a datum for a predicate. -/
def whereEq
    (q : RangeQuery)
    (predicate : String)
    (d : Datum) : Except StoreError RangeQuery := do
  .ok { q with wheres := q.wheres ++ [← Clause.encoding predicate d] }

/- Drop the subjects that have any value for a predicate. -/
def lacking
    (q : RangeQuery)
    (predicate : String) : RangeQuery :=
  { q with without := q.without ++ [predicate] }

end RangeQuery

/- Values after a datum, from the least one on. -/
def after
    (predicate : String)
    (d : Datum) : Except StoreError RangeQuery :=
  RangeQuery.beyond .ascending predicate d

/- Values before a datum, from the greatest one on. -/
def before
    (predicate : String)
    (d : Datum) : Except StoreError RangeQuery :=
  RangeQuery.beyond .descending predicate d

------------------------------------------------------------
-- All subjects in order
------------------------------------------------------------

/-
  All triples of the subjects that have a value for a predicate,
  in the order of those values.
-/
structure OrderQuery where
  predicate : String
  direction : Direction
  wheres : List Clause
  without : List String
deriving DecidableEq, Repr

/- From the least value on. -/
def ascending (predicate : String) : OrderQuery :=
  ⟨predicate, .ascending, [], []⟩

/- From the greatest value on. -/
def descending (predicate : String) : OrderQuery :=
  ⟨predicate, .descending, [], []⟩

namespace OrderQuery

/- Only subjects that also have a datum for a predicate. -/
def whereEq
    (q : OrderQuery)
    (predicate : String)
    (d : Datum) : Except StoreError OrderQuery := do
  .ok { q with wheres := q.wheres ++ [← Clause.encoding predicate d] }

/- Drop the subjects that have any value for a predicate. -/
def lacking
    (q : OrderQuery)
    (predicate : String) : OrderQuery :=
  { q with without := q.without ++ [predicate] }

end OrderQuery

/- A query of a collection. -/
inductive Query where
  /- Every triple. -/
  | all
  | about (q : AboutQuery)
  | matching (q : MatchQuery)
  | range (q : RangeQuery)
  | order (q : OrderQuery)
deriving DecidableEq, Repr

end Factbase
