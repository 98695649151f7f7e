import Factbase.Store.Row

/-
  This file defines the statements that queries are compiled
  to, and what they yield.

  A template is a statement with a gap wherever a literal
  stands.  It comes with the list of arguments that go into
  the gaps, in the order of the text.  A test whose arguments
  are not of the kinds that it takes holds of no row.

  Key definitions include:
    * `Arg`
    * `Direction`
    * `Test`
    * `Compound`
    * `Template`
    * `Statement`
    * `Statement.list`
    * `Statement.any`
-/

namespace Factbase

------------------------------------------------------------
-- Arguments and directions
------------------------------------------------------------

/- An argument of a statement. -/
inductive Arg where
  | text (s : String)
  | integer (n : Nat)
deriving DecidableEq, Repr

/- The direction of an ordered scan. -/
inductive Direction where
  | ascending
  | descending
deriving DecidableEq, Repr

/- Order of cells from the start of a scan. -/
def Direction.compare
    (d : Direction)
    (a b : Cell) : Ordering :=
  match d with
  | .ascending => a.compare b
  | .descending => b.compare a

------------------------------------------------------------
-- Tests of rows
------------------------------------------------------------

/- A test of a row by its predicate and its value. -/
inductive Test where
  /- The predicate is the argument. -/
  | has
  /- The predicate and the value are the arguments. -/
  | equals
  /- The predicate is the first argument, and of the value as
     many characters as the second says are the third. -/
  | begins
  /- The predicate is the first argument, and the value comes
     after the second in a direction. -/
  | beyond (d : Direction)
deriving DecidableEq, Repr

namespace Test

/- How many arguments a test takes. -/
def arity : Test → Nat
  | .has => 1
  | .equals => 2
  | .begins => 3
  | .beyond _ => 2

/- A row passes a test. -/
def holds : Test → List Arg → Row → Bool
  | .has, [.text p], r => r.predicate = p
  | .equals, [.text p, .text v], r =>
      r.predicate = p && r.value = .text v
  | .begins, [.text p, .integer n, .text start], r =>
      r.predicate = p && r.value.startsWith start n
  | .beyond d, [.text p, .text v], r =>
      r.predicate = p && d.compare (.text v) r.value = .lt
  | _, _, _ => false

/- The distinct subjects of the rows that pass a test. -/
def subjects
    (t : Test)
    (args : List Arg)
    (rows : List Row) : List String :=
  ((rows.filter (t.holds args)).map Row.subject).eraseDups

end Test

------------------------------------------------------------
-- Sets of subjects
------------------------------------------------------------

/- How a set of subjects is combined with those before it. -/
inductive SetOperator where
  | intersect
  | except
deriving DecidableEq, Repr

/- The combination of two sets of subjects. -/
def SetOperator.apply
    (op : SetOperator)
    (xs ys : List String) : List String :=
  match op with
  | .intersect => xs.filter (· ∈ ys)
  | .except => xs.filter (· ∉ ys)

/-
  A set of subjects: those that pass a test, combined with
  those that pass others from left to right.
-/
structure Compound where
  first : Test
  rest : List (SetOperator × Test)
deriving DecidableEq, Repr

namespace Compound

/- The tests of a set. -/
def tests (c : Compound) : List Test :=
  c.first :: c.rest.map Prod.snd

/- How many arguments further tests take. -/
def restArity : List (SetOperator × Test) → Nat
  | [] => 0
  | (_, t) :: rest => t.arity + restArity rest

/- How many arguments a set takes. -/
def arity (c : Compound) : Nat :=
  c.first.arity + restArity c.rest

/- Combine subjects with those that pass further tests. -/
def narrow
    (rows : List Row) :
    List String → List (SetOperator × Test) → List Arg →
      List String
  | found, [], _ => found
  | found, (op, t) :: rest, args =>
      let others := t.subjects (args.take t.arity) rows
      narrow rows (op.apply found others) rest
        (args.drop t.arity)

/- The subjects of a set. -/
def subjects
    (c : Compound)
    (args : List Arg)
    (rows : List Row) : List String :=
  narrow rows
    (c.first.subjects (args.take c.first.arity) rows)
    c.rest (args.drop c.first.arity)

end Compound

/-
  Rows joined with subjects: each row as often as its subject
  is there.
-/
def Row.join
    (found : List String)
    (rows : List Row) : List Row :=
  rows.flatMap fun r =>
    (found.filter (· = r.subject)).map fun _ => r

------------------------------------------------------------
-- Rankings of subjects
------------------------------------------------------------

/- A subject and the cell that it is ordered by. -/
structure Ranked where
  subject : String
  key : Cell
deriving DecidableEq, Repr

/- The cell nearest to the start of a scan. -/
def Direction.nearest?
    (d : Direction) : List Cell → Option Cell
  | [] => none
  | c :: cs =>
      some (cs.foldl
        (fun a b => if d.compare b a = .lt then b else a) c)

/-
  A ranking of subjects by the cells of theirs that pass a
  test, perhaps with a limit on their number.
-/
structure Ranking where
  test : Test
  direction : Direction
  limited : Bool
deriving DecidableEq, Repr

namespace Ranking

/- A subject with its place, if it has one. -/
def rank?
    (k : Ranking)
    (args : List Arg)
    (rows : List Row)
    (subject : String) : Option Ranked :=
  let own := rows.filter fun r =>
    r.subject = subject && k.test.holds args r
  (k.direction.nearest? (own.map Row.value)).map fun key =>
    ⟨subject, key⟩

/- Order by the key, then by the subject. -/
def compare (k : Ranking) : Ranked → Ranked → Ordering :=
  compareLex (fun a b => k.direction.compare a.key b.key)
    (compareOn Ranked.subject)

/- The first ones of a ranking, if it has a limit. -/
def cut
    (k : Ranking)
    (args : List Arg)
    (ranked : List Ranked) : List Ranked :=
  match k.limited, args with
  | false, _ => ranked
  | true, [.integer n] => ranked.take n
  | true, _ => []

/- How many arguments a ranking takes. -/
def arity (k : Ranking) : Nat :=
  k.test.arity + (if k.limited then 1 else 0)

/- The ranking of some candidates by their rows that pass. -/
def order
    (k : Ranking)
    (args : List Arg)
    (rows : List Row)
    (candidates : List String) : List Ranked :=
  let own := args.take k.test.arity
  let joined := Row.join candidates rows
  let ranked :=
    (k.test.subjects own joined).filterMap (k.rank? own joined)
  k.cut (args.drop k.test.arity)
    (ranked.mergeSort fun a b => (k.compare a b).isLE)

end Ranking

------------------------------------------------------------
-- Templates
------------------------------------------------------------

/- A statement with gaps for its arguments. -/
inductive Template where
  | everything
  /- The rows of the subject that is the argument. -/
  | about
  /- The same, if the subject is in a set. -/
  | aboutAmong (c : Compound)
  /- The rows of the subjects in a set. -/
  | among (c : Compound)
  /- The same in the order of a ranking. -/
  | ranked (c : Compound) (k : Ranking)
deriving DecidableEq, Repr

namespace Template

/- How many arguments a template takes. -/
def arity : Template → Nat
  | .everything => 0
  | .about => 1
  | .aboutAmong c => c.arity + 1
  | .among c => c.arity
  | .ranked c k => c.arity + k.arity

/- How many arguments the set of a template takes. -/
def parameters : Template → Nat
  | .aboutAmong c => c.arity
  | .among c => c.arity
  | .ranked c _ => c.arity
  | _ => 0

/- How many sets of subjects a template combines. -/
def terms : Template → Nat
  | .aboutAmong c => c.tests.length
  | .among c => c.tests.length
  | .ranked c _ => c.tests.length
  | _ => 0

/- The names that a template gives to sets of its own. -/
def names : Template → List String
  | .aboutAmong _ => ["candidates"]
  | .among _ => ["candidates"]
  | .ranked _ _ => ["candidates", "ordered_subjects"]
  | _ => []

end Template

/- Rows beside the ranks of their subjects. -/
def Ranked.join
    (ranked : List Ranked)
    (rows : List Row) : List (Ranked × Row) :=
  ranked.flatMap fun k =>
    (rows.filter (·.subject = k.subject)).map fun r => (k, r)

/- The subject given by the only argument is the one wanted. -/
def isSubject : List Arg → String → Bool
  | [.text s], subject => subject = s
  | _, _ => false

------------------------------------------------------------
-- Statements
------------------------------------------------------------

/- A template with its arguments. -/
structure Statement where
  template : Template
  args : List Arg
deriving DecidableEq, Repr

namespace Statement

/- The rows that a statement yields from those of a collection. -/
def list
    (q : Statement)
    (rows : List Row) : List Row :=
  match q.template with
  | .everything => Row.sort rows
  | .about => Row.sort (rows.filter fun r => isSubject q.args r.subject)
  | .aboutAmong c =>
      let found := c.subjects (q.args.take c.arity) rows
      let own := q.args.drop c.arity
      Row.sort ((Row.join found rows).filter fun r =>
        isSubject own r.subject)
  | .among c =>
      let found := c.subjects q.args rows
      Row.sort (Row.join found rows)
  | .ranked c k =>
      let found := c.subjects (q.args.take c.arity) rows
      let ranked := k.order (q.args.drop c.arity) rows found
      let order := compareLex
        (fun a b => k.direction.compare a.1.key b.1.key)
        (fun a b => a.2.compare b.2)
      ((Ranked.join ranked rows).mergeSort
        fun a b => (order a b).isLE).map Prod.snd

/- Whether a statement finds anything, without reading rows. -/
def any
    (q : Statement)
    (rows : List Row) : Bool :=
  match q.template with
  | .everything => !rows.isEmpty
  | .about => rows.any fun r => isSubject q.args r.subject
  | .aboutAmong c =>
      (c.subjects (q.args.take c.arity) rows).any
        (isSubject (q.args.drop c.arity))
  | .among c => !(c.subjects q.args rows).isEmpty
  | .ranked c k =>
      let found := c.subjects (q.args.take c.arity) rows
      !(k.order (q.args.drop c.arity) rows found).isEmpty

end Statement

end Factbase
