import Factbase.Proofs.Query.Candidates
import Factbase.Proofs.Store.Reachable

/-
  Queries that choose triples without giving them a new order.

  Whatever its conditions, such a query lists the triples that
  the list of all has of the subjects it selects, in the same
  order.  It fails if it combines too many sets, or if the
  collection has a name that the statement uses for itself.

  Key definitions include:
    * `Query.parameters`
    * `Query.excess`

  Main declarations:
    * `Query.terms_statement`
    * `Query.parameters_statement`
    * `Store.prepare_eq`
    * `Query.names_statement`
    * `Store.on_list_query`
    * `Query.list_statement`
    * `Store.list_eq_filter`
-/

namespace Factbase

------------------------------------------------------------
-- Preparation
------------------------------------------------------------

namespace Query

/- The statement of a query combines the sets of the query. -/
theorem terms_statement (q : Query) :
    q.statement.template.terms = q.sets := by
  cases q with
  | all => rfl
  | about q =>
      rcases q with ⟨subject, _ | ⟨c, cs⟩⟩
      · rfl
      · simp [statement, AboutQuery.statement, Template.terms,
          length_tests_candidates, sets, Nat.add_comm]
  | matching q =>
      simp [statement, MatchQuery.statement, Template.terms,
        length_tests_candidates, sets, wheres, has, without,
        Nat.add_assoc]
  | range q =>
      simp [statement, scan, Template.terms,
        length_tests_candidates, sets, wheres, has, without]
  | order q =>
      simp [statement, scan, Template.terms,
        length_tests_candidates, sets, wheres, has, without]

/- It defines the names that are its own. -/
theorem names_statement (q : Query) :
    q.statement.template.names = q.ownNames := by
  cases q with
  | about q => rcases q with ⟨subject, _ | ⟨c, cs⟩⟩ <;> rfl
  | _ => rfl

/- How many arguments the first condition of a query takes. -/
def startParameters : Query → Nat
  | .all => 0
  | .about _ => 0
  | .matching q => q.primary.test.1.arity
  | .range _ => 2
  | .order _ => 1

/- How many arguments the set of a query takes. -/
def parameters (q : Query) : Nat :=
  q.startParameters + 2 * q.wheres.length + q.has.length
    + q.without.length

/- Why a query that combines too many sets is refused. -/
def excess (q : Query) : EngineFault :=
  if Database.mostParameters < q.parameters then .tooManyVariables
  else .tooManyTerms

/- A further test takes the arguments of its condition. -/
theorem arity_candidates
    (first : BoundTest)
    (wheres : List Clause)
    (has without : List String) :
    (candidates first
        (wheres.map Clause.test ++ has.map hasTest)
        (without.map hasTest)).1.arity =
      first.1.arity + 2 * wheres.length + has.length
        + without.length := by
  have hTwo : ∀ c : Clause, c.test.1.arity = 2 := fun _ => rfl
  have hOne : ∀ p : String, (hasTest p).1.arity = 1 :=
    fun _ => rfl
  simp [candidates, Compound.arity, Compound.restArity_eq_sum,
    Function.comp_def, hTwo, hOne, Nat.add_assoc, Nat.mul_comm]

/- Its set takes the arguments of the conditions. -/
theorem parameters_statement (q : Query) :
    q.statement.template.parameters = q.parameters := by
  cases q with
  | all => rfl
  | about q =>
      rcases q with ⟨subject, _ | ⟨c, cs⟩⟩
      · rfl
      · have hArity := arity_candidates c.test cs [] []
        rw [List.map_nil, List.append_nil, List.length_nil]
          at hArity
        refine hArity.trans ?_
        simp only [parameters, startParameters, wheres, has,
          without, List.length_cons, List.length_nil, Clause.test,
          Test.arity]
        omega
  | matching q => exact arity_candidates _ _ _ _
  | range q =>
      have hArity := arity_candidates
        (rangeTest q.predicate (some q.threshold) q.direction)
        q.wheres [] q.without
      rw [List.map_nil, List.append_nil] at hArity
      exact hArity
  | order q =>
      have hArity := arity_candidates
        (rangeTest q.predicate none q.direction)
        q.wheres [] q.without
      rw [List.map_nil, List.append_nil] at hArity
      exact hArity

/- No condition takes more than three arguments. -/
theorem parameters_le (q : Query) : q.parameters ≤ 3 * q.sets := by
  have hFirst : ∀ t : Test, t.arity ≤ 3 := fun t => by
    cases t <;> simp [Test.arity]
  cases q with
  | matching q =>
      have hPrimary := hFirst q.primary.test.1
      simp only [parameters, startParameters, sets, wheres, has,
        without]
      omega
  | _ =>
      simp only [parameters, startParameters, sets, wheres, has,
        without, List.length_nil]
      omega

/- Only thousands of sets take too many arguments. -/
theorem excess_of_le
    {q : Query}
    (hSets : 3 * q.sets ≤ Database.mostParameters) :
    q.excess = .tooManyTerms :=
  if_neg (Nat.not_lt.mpr (q.parameters_le.trans hSets))

end Query

namespace Store

variable {s : Store}
variable {c : Connection}
variable {rows : List Row}

/-
  A query whose set takes too many arguments combines too many
  sets, so the number of these decides alone whether it is run.
-/
theorem prepare_eq
    (db : Database)
    (collection : String)
    (q : Query) :
    db.prepare collection q.statement.template =
      if Database.mostTerms < q.sets then .error q.excess
      else if foldName collection ∈ q.ownNames then
        .error (.circularReference (foldName collection))
      else db.rows collection := by
  rw [Database.prepare, q.parameters_statement, q.terms_statement,
    q.names_statement, Query.excess]
  by_cases hParameters : Database.mostParameters < q.parameters
  · have hTerms : Database.mostTerms < q.sets := by
      have hBound := q.parameters_le
      unfold Database.mostParameters at hParameters
      unfold Database.mostTerms
      omega
    rw [if_pos hParameters, if_pos hTerms, if_pos hParameters]
  · rw [if_neg hParameters, if_neg hParameters]

/- What a query answers, by the rows of its collection. -/
theorem on_list_query
    (hRows : c.content.rows s.collection = .ok rows)
    (q : Query) :
    (s.list q).on c =
      (if Database.mostTerms < q.sets then
          .error (.execution q.excess)
        else if foldName s.collection ∈ q.ownNames then
          .error (.execution
            (.circularReference (foldName s.collection)))
        else (Row.readAll (q.statement.list rows)).mapError
          .execution, c) := by
  rw [on_list, prepare_eq, hRows]
  split_ifs <;> rfl

/- A query that does not fail answers the triples of its rows. -/
theorem on_list_of_rows
    (hRows : c.content.rows s.collection = .ok rows)
    {q : Query}
    (hTerms : q.sets ≤ Database.mostTerms)
    (hName : foldName s.collection ∉ q.ownNames)
    {ts : List Triple}
    (hList : q.statement.list rows = ts.map Triple.row) :
    (s.list q).on c = (.ok ts, c) := by
  rw [on_list_query hRows, if_neg (Nat.not_lt.mpr hTerms),
    if_neg hName, hList, Row.readAll_map_row]
  rfl

end Store

------------------------------------------------------------
-- Statements
------------------------------------------------------------

section Statements

variable {rows : List Row}
variable {ts : List Triple}
variable {subject : String}
variable (hSort : Row.sort rows = ts.map Triple.row)
include hSort

/- A choice of rows by their subjects is one of triples. -/
theorem sort_filter_of_selects
    {q : Query}
    {chosen : Row → Bool}
    (hChosen :
      ∀ r, chosen r = true ↔ q.Selects ts r.subject) :
    Row.sort (rows.filter chosen) =
      (ts.filter fun t => q.Selects ts t.subject).map
        Triple.row := by
  rw [Row.sort_filter, hSort, List.filter_map]
  congr 1
  apply List.filter_congr
  intro t _
  rw [Bool.eq_iff_iff, decide_eq_true_eq]
  exact hChosen t.row

/- The candidates of a subject are those that meet all clauses. -/
theorem AboutQuery.mem_candidates_iff
    (c : Clause)
    (cs : List Clause) :
    subject ∈
        (candidates c.test (cs.map Clause.test) []).1.subjects
          (candidates c.test (cs.map Clause.test) []).2 rows ↔
      ∀ clause ∈ c :: cs, clause.Holds ts subject := by
  rw [Factbase.mem_candidates_iff c.fits_test
      (by simp [Clause.fits_test]) (by simp),
    c.passes_test_iff hSort, List.forall_mem_map,
    List.forall_mem_cons]
  simp only [Clause.passes_test_iff hSort]
  simp

/- The candidates are the subjects that are selected. -/
theorem MatchQuery.mem_candidates_iff (q : MatchQuery) :
    subject ∈
        (candidates q.primary.test
          (q.wheres.map Clause.test ++ q.has.map hasTest)
          (q.without.map hasTest)).1.subjects
        (candidates q.primary.test
          (q.wheres.map Clause.test ++ q.has.map hasTest)
          (q.without.map hasTest)).2 rows ↔
      (Query.matching q).Selects ts subject := by
  rw [Factbase.mem_candidates_iff q.primary.fits_test
      (by simp [or_imp, forall_and, Clause.fits_test,
        fits_hasTest])
      (by simp [fits_hasTest]),
    q.primary.passes_test_iff hSort, List.forall_mem_append,
    List.forall_mem_map, List.forall_mem_map,
    List.forall_mem_map, and_assoc]
  simp only [Clause.passes_test_iff hSort,
    passes_hasTest_iff hSort]
  rfl

theorem AboutQuery.list_statement (q : AboutQuery) :
    q.statement.list rows =
      (ts.filter fun t =>
        (Query.about q).Selects ts t.subject).map
          Triple.row := by
  rcases q with ⟨wanted, _ | ⟨c, cs⟩⟩
  · apply sort_filter_of_selects hSort
    simp [AboutQuery.statement, isSubject, Query.Selects,
      Query.Starts, Query.wheres, Query.has, Query.without]
  · have hLength :
        (candidates c.test (cs.map Clause.test) []).2.length =
          (candidates c.test (cs.map Clause.test) []).1.arity :=
      length_candidates c.fits_test
        (by simp [Clause.fits_test]) (by simp)
    simp only [AboutQuery.statement, Statement.list]
    rw [List.take_left' hLength, List.drop_left' hLength,
      Row.join_eq_filter (Compound.nodup_subjects _ _),
      List.filter_filter]
    apply sort_filter_of_selects hSort
    intro r
    rw [Bool.and_eq_true, decide_eq_true_eq,
      AboutQuery.mem_candidates_iff hSort]
    simp [isSubject, Query.Selects, Query.Starts,
      Query.wheres, Query.has, Query.without]

theorem MatchQuery.list_statement (q : MatchQuery) :
    q.statement.list rows =
      (ts.filter fun t =>
        (Query.matching q).Selects ts t.subject).map
          Triple.row := by
  simp only [MatchQuery.statement, Statement.list]
  rw [Row.join_eq_filter (Compound.nodup_subjects _ _)]
  apply sort_filter_of_selects hSort
  intro r
  rw [decide_eq_true_eq]
  exact q.mem_candidates_iff hSort

/-
  The rows of a query that is no scan are the sorted ones of the
  subjects that it selects.
-/
theorem Query.list_statement
    {q : Query}
    (hFilter : q.scan? = none) :
    q.statement.list rows =
      (ts.filter fun t => q.Selects ts t.subject).map
        Triple.row := by
  cases q with
  | all =>
      rw [statement, Statement.list, hSort]
      simp [Selects, Starts, wheres, has, without]
  | about q => exact q.list_statement hSort
  | matching q => exact q.list_statement hSort
  | range q => cases hFilter
  | order q => cases hFilter

end Statements

/-
  On any reachable connection, a query that is no scan lists the
  triples of the subjects that it selects, in the order of the
  list of all.  It fails if it combines more sets than it may,
  and if the name of the collection is one that its statement
  gives to a set of its own.
-/
theorem Store.list_eq_filter
    (s : Store)
    (c : Connection)
    (hReach : c.Reachable)
    (hTable : c.content.hasTable s.collection = true)
    (q : Query)
    (hFilter : q.scan? = none) :
    ∃ ts,
      (s.list .all).on c = (.ok ts, c) ∧
      (s.list q).on c =
        (if Database.mostTerms < q.sets then
            .error (.execution q.excess)
          else if foldName s.collection ∈ q.ownNames then
            .error (.execution
              (.circularReference (foldName s.collection)))
          else
            .ok (ts.filter fun t => q.Selects ts t.subject),
          c) := by
  rcases Database.hasTable_iff.mp hTable with ⟨rows, hRows⟩
  rcases (hReach.rows_sound hRows).exists_triples with
    ⟨ts, hSort, _⟩
  refine ⟨ts, on_list_all hRows hSort, ?_⟩
  rw [on_list_query hRows, Query.list_statement hSort hFilter,
    Row.readAll_map_row]
  rfl

/-
  The subjects with a tag that is true and any age, of two
  collections after the same writes.  Only the name of the
  second one makes the query fail.
-/
theorem Store.list_eq_filter_people_candidates :
    let q : Query :=
      .matching ⟨.equals ⟨"tag", "true"⟩, [], ["age"], []⟩
    let writes : List Command :=
      [.set "ann" "tag" (.bool true), .set "ann" "age" .unit,
        .set "bob" "tag" (.bool true)]
    let people := (runAll ⟨"people"⟩ writes (.fresh "people")).2
    let others :=
      (runAll ⟨"candidates"⟩ writes (.fresh "candidates")).2
    (∃ ts,
      (list ⟨"people"⟩ .all).on people = (.ok ts, people) ∧
      (list ⟨"people"⟩ q).on people =
        (.ok (ts.filter fun t => q.Selects ts t.subject),
          people)) ∧
    (list ⟨"candidates"⟩ q).on others =
      (.error (.execution (.circularReference "candidates")),
        others) := by
  intro q writes people others
  have hPeople : foldName "people" = "people" :=
    foldName_eq_self rfl
  have hOthers : foldName "candidates" = "candidates" :=
    foldName_eq_self rfl
  have hReachPeople : people.Reachable :=
    (Connection.reachable_fresh (by decide) hPeople
      (by decide)).runAll _ writes
  have hReachOthers : others.Reachable :=
    (Connection.reachable_fresh (by decide) hOthers
      (by decide)).runAll _ writes
  have hTerms : ¬Database.mostTerms < q.sets := by decide
  constructor
  · rcases list_eq_filter ⟨"people"⟩ people hReachPeople
        (hasTable_runAll (Connection.hasTable_fresh hPeople) _)
        q rfl with
      ⟨ts, hAll, hList⟩
    rw [if_neg hTerms, hPeople, if_neg (by decide)] at hList
    exact ⟨ts, hAll, hList⟩
  · rcases list_eq_filter ⟨"candidates"⟩ others hReachOthers
        (hasTable_runAll (Connection.hasTable_fresh hOthers) _)
        q rfl with
      ⟨ts, hAll, hList⟩
    rw [if_neg hTerms, hOthers, if_pos (by decide)] at hList
    exact hList

end Factbase
