import Factbase.Triple

/-
  This file defines the grouping of triples by subject, in a
  single pass.

  The triples of a subject have to follow each other, as they
  do in the answer to a query.  A value that cannot be decoded
  is left out of its group and noted beside the groups.

  Key definitions include:
    * `Group`
    * `Grouping`
    * `grouped`
    * `Grouping.strict`
-/

namespace Factbase

------------------------------------------------------------
-- Groups
------------------------------------------------------------

/- The values of one subject by predicate. -/
structure Group where
  subject : String
  properties : Entries (List Value)
deriving Repr

namespace Group

/- The group of a subject before its first value. -/
def empty (subject : String) : Group :=
  ⟨subject, []⟩

/- The values of a predicate in the order they came. -/
def values
    (g : Group)
    (predicate : String) : List Value :=
  (g.properties.find? predicate).getD []

def first?
    (g : Group)
    (predicate : String) : Option Value :=
  (g.values predicate).head?

/- Add a value after those of its predicate. -/
def add
    (g : Group)
    (predicate : String)
    (v : Value) : Group :=
  { g with
    properties :=
      g.properties.insert predicate (g.values predicate ++ [v]) }

end Group

/- A value that could not be decoded, and why. -/
structure GroupingFailure where
  triple : Triple
  error : StoreError
deriving DecidableEq, Repr

/- Groups of the values that were decoded, and the failures. -/
structure Grouping where
  groups : List Group
  failures : List GroupingFailure
deriving Repr

namespace Grouping

/- All values were decoded. -/
def isComplete (g : Grouping) : Bool :=
  g.failures.isEmpty

/- The groups, unless a value could not be decoded. -/
def strict (g : Grouping) : Except StoreError (List Group) :=
  match g.failures with
  | [] => .ok g.groups
  | failure :: _ =>
      .error (.decode
        (failure.triple.predicate ++ " of "
          ++ failure.triple.subject ++ ": "
          ++ failure.error.message))

end Grouping

------------------------------------------------------------
-- The pass
------------------------------------------------------------

/-
  What is known between two triples: the subjects seen, the
  group that is being filled, and what is finished, the latest
  first.
-/
structure GroupingPass where
  started : List String
  current : Option Group
  finished : List Group
  failures : List GroupingFailure
deriving Repr

namespace GroupingPass

/- Before the first triple. -/
def start : GroupingPass :=
  ⟨[], none, [], []⟩

/- The groups so far, the one being filled included. -/
def groups (p : GroupingPass) : List Group :=
  p.current.toList ++ p.finished

/- Start the group of a new subject. -/
def turnTo
    (p : GroupingPass)
    (subject : String) : Except StoreError GroupingPass :=
  if subject ∈ p.started then .error (.ungrouped subject)
  else
    .ok { p with
      started := subject :: p.started,
      current := some (.empty subject),
      finished := p.groups }

/- Add the value of a triple to the group being filled. -/
def take
    (p : GroupingPass)
    (t : Triple) : GroupingPass :=
  match t.value with
  | .ok v =>
      { p with current := p.current.map (·.add t.predicate v) }
  | .error e => { p with failures := ⟨t, e⟩ :: p.failures }

/- The next triple. -/
def step
    (p : GroupingPass)
    (t : Triple) : Except StoreError GroupingPass :=
  if p.current.map Group.subject = some t.subject then
    .ok (p.take t)
  else (p.turnTo t.subject).map (·.take t)

/- After the last triple. -/
def finish (p : GroupingPass) : Grouping :=
  ⟨p.groups.reverse, p.failures.reverse⟩

end GroupingPass

/- One group for each subject, in the order of the triples. -/
def grouped (ts : List Triple) : Except StoreError Grouping :=
  (ts.foldlM GroupingPass.step .start).map GroupingPass.finish

end Factbase
