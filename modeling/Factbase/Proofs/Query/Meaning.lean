import Factbase.Proofs.Text.ByteOrder
import Factbase.Query.Descriptor

/-
  What queries mean: which subjects they select from the triples
  of a collection.

  Key definitions include:
    * `Clause.Holds`
    * `HasAny`
    * `Scan`
    * `Query.Selects`
    * `Query.sets`
    * `Query.ownNames`
    * `Scan.IsRanking`
    * `listing`
-/

namespace Factbase

variable (ts : List Triple)
variable (subject : String)

------------------------------------------------------------
-- Conditions
------------------------------------------------------------

def Clause.Holds (c : Clause) : Prop :=
  ⟨subject, c.predicate, c.value⟩ ∈ ts

instance (c : Clause) : Decidable (c.Holds ts subject) :=
  inferInstanceAs (Decidable (_ ∈ ts))

/- A subject has a value for a predicate. -/
def HasAny (predicate : String) : Prop :=
  ∃ t ∈ ts, t.subject = subject ∧ t.predicate = predicate

instance (predicate : String) :
    Decidable (HasAny ts subject predicate) :=
  inferInstanceAs (Decidable (∃ t ∈ ts, _))

/- A subject has a value with a given start, in encoded form. -/
def HasStart (predicate start : String) : Prop :=
  ∃ t ∈ ts, t.subject = subject ∧ t.predicate = predicate ∧
    start.toList <+: t.encoded.toList

instance (predicate start : String) :
    Decidable (HasStart ts subject predicate start) :=
  inferInstanceAs (Decidable (∃ t ∈ ts, _))

/- A subject meets the condition that a query starts from. -/
def Primary.Holds : Primary → Prop
  | .equals c => c.Holds ts subject
  | .begins predicate start =>
      HasStart ts subject predicate start

instance (p : Primary) : Decidable (p.Holds ts subject) :=
  match p with
  | .equals c => inferInstanceAs (Decidable (c.Holds ts subject))
  | .begins predicate start =>
      inferInstanceAs
        (Decidable (HasStart ts subject predicate start))

------------------------------------------------------------
-- Scans
------------------------------------------------------------

/- A value comes before another one in a direction. -/
def Direction.Before
    (d : Direction)
    (v w : String) : Prop :=
  match d with
  | .ascending => utf8 v < utf8 w
  | .descending => utf8 w < utf8 v

instance (d : Direction) (v w : String) :
    Decidable (d.Before v w) :=
  match d with
  | .ascending => inferInstanceAs (Decidable (utf8 v < utf8 w))
  | .descending => inferInstanceAs (Decidable (utf8 w < utf8 v))

/-
  What an ordered scan goes over: the values of a predicate in
  a direction, those beyond a threshold if there is one.
-/
structure Scan where
  predicate : String
  threshold : Option String
  direction : Direction

namespace Scan

/- A value is in the range of a scan. -/
def InRange
    (k : Scan)
    (v : String) : Prop :=
  ∀ w ∈ k.threshold, k.direction.Before w v

instance (k : Scan) (v : String) : Decidable (k.InRange v) :=
  inferInstanceAs (Decidable (∀ w ∈ k.threshold, _))

/- A subject has a value in the range of a scan. -/
def Reaches (k : Scan) : Prop :=
  ∃ t ∈ ts, t.subject = subject ∧ t.predicate = k.predicate ∧
    k.InRange t.encoded

instance (k : Scan) : Decidable (k.Reaches ts subject) :=
  inferInstanceAs (Decidable (∃ t ∈ ts, _))

/- The value in the range that comes before all others. -/
def IsKey
    (k : Scan)
    (key : String) : Prop :=
  (⟨subject, k.predicate, key⟩ ∈ ts ∧ k.InRange key) ∧
    ∀ v, ⟨subject, k.predicate, v⟩ ∈ ts → k.InRange v →
      ¬k.direction.Before v key

/-
  The order of subjects with their keys: by key in the direction
  of the scan, and of equal keys by subject, always ascending.
-/
def Precedes
    (k : Scan)
    (a b : String × String) : Prop :=
  k.direction.Before a.2 b.2 ∨
    a.2 = b.2 ∧ utf8 a.1 < utf8 b.1

end Scan

------------------------------------------------------------
-- Queries
------------------------------------------------------------

namespace Query

/- The scan that a query makes, if it is an ordered one. -/
def scan? : Query → Option Scan
  | .range q => some ⟨q.predicate, some q.threshold, q.direction⟩
  | .order q => some ⟨q.predicate, none, q.direction⟩
  | _ => none

/- Only ranges and orders make scans. -/
theorem scan_cases
    {q : Query}
    {k : Scan}
    (hScan : q.scan? = some k) :
    (∃ r, q = .range r ∧
      k = ⟨r.predicate, some r.threshold, r.direction⟩) ∨
    ∃ r, q = .order r ∧ k = ⟨r.predicate, none, r.direction⟩ := by
  cases q with
  | range r =>
      cases hScan
      exact Or.inl ⟨r, rfl, rfl⟩
  | order r =>
      cases hScan
      exact Or.inr ⟨r, rfl, rfl⟩
  | all => cases hScan
  | about r => cases hScan
  | matching r => cases hScan

/- The values that a query requires besides its first condition. -/
def wheres : Query → List Clause
  | .all => []
  | .about q => q.wheres
  | .matching q => q.wheres
  | .range q => q.wheres
  | .order q => q.wheres

/- The predicates that a query requires any value for. -/
def has : Query → List String
  | .matching q => q.has
  | _ => []

/- The predicates that a query forbids all values for. -/
def without : Query → List String
  | .matching q => q.without
  | .range q => q.without
  | .order q => q.without
  | _ => []

/- A subject meets the first condition of a query. -/
def Starts : Query → Prop
  | .all => True
  | .about q => subject = q.subject
  | .matching q => q.primary.Holds ts subject
  | .range q =>
      Scan.Reaches ts subject
        ⟨q.predicate, some q.threshold, q.direction⟩
  | .order q =>
      Scan.Reaches ts subject ⟨q.predicate, none, q.direction⟩

instance (q : Query) : Decidable (q.Starts ts subject) :=
  match q with
  | .all => inferInstanceAs (Decidable True)
  | .about q => inferInstanceAs (Decidable (subject = q.subject))
  | .matching q =>
      inferInstanceAs (Decidable (q.primary.Holds ts subject))
  | .range q =>
      inferInstanceAs (Decidable (Scan.Reaches ts subject
        ⟨q.predicate, some q.threshold, q.direction⟩))
  | .order q =>
      inferInstanceAs (Decidable (Scan.Reaches ts subject
        ⟨q.predicate, none, q.direction⟩))

/- A subject meets all conditions of a query. -/
def Selects (q : Query) : Prop :=
  q.Starts ts subject ∧
    (∀ c ∈ q.wheres, c.Holds ts subject) ∧
    (∀ predicate ∈ q.has, HasAny ts subject predicate) ∧
    ∀ predicate ∈ q.without, ¬HasAny ts subject predicate

instance (q : Query) : Decidable (q.Selects ts subject) :=
  inferInstanceAs (Decidable (_ ∧ _ ∧ _ ∧ _))

/- A query without the limit that it has. -/
def unlimited : Query → Query
  | .range q => .range { q with limit := none }
  | q => q

/- How many sets of subjects a query combines. -/
def sets : Query → Nat
  | .all => 0
  | .about q => q.wheres.length
  | q =>
      1 + q.wheres.length + q.has.length + q.without.length

/- The names that a query gives to sets of its own. -/
def ownNames : Query → List String
  | .all => []
  | .about q => if q.wheres = [] then [] else ["candidates"]
  | .matching _ => ["candidates"]
  | _ => ["candidates", "ordered_subjects"]

theorem selects_iff_of_scan
    {q : Query}
    {k : Scan}
    (hScan : q.scan? = some k) :
    q.Selects ts subject ↔
      k.Reaches ts subject ∧
        (∀ c ∈ q.wheres, c.Holds ts subject) ∧
        ∀ predicate ∈ q.without,
          ¬HasAny ts subject predicate := by
  rcases scan_cases hScan with ⟨r, rfl, rfl⟩ | ⟨r, rfl, rfl⟩ <;>
    simp [Selects, Starts, has]

theorem sets_unlimited (q : Query) :
    q.unlimited.sets = q.sets := by
  cases q <;> rfl

theorem ownNames_unlimited (q : Query) :
    q.unlimited.ownNames = q.ownNames := by
  cases q <;> rfl

end Query

/-
  The subjects that a query selects, each once and with its key,
  in the order of a scan.
-/
structure Scan.IsRanking
    (k : Scan)
    (q : Query)
    (ranking : List (String × String)) : Prop where
  ordered : ranking.Pairwise k.Precedes
  once : (ranking.map Prod.fst).Nodup
  selected :
    ∀ s, s ∈ ranking.map Prod.fst ↔ q.Selects ts s
  keyed : ∀ a ∈ ranking, k.IsKey ts a.1 a.2

/- The triples of ranked subjects, those of one after another. -/
def listing (ranking : List (String × String)) : List Triple :=
  ranking.flatMap fun a => ts.filter fun t => t.subject = a.1

end Factbase
