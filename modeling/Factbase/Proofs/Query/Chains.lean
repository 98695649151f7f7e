import Factbase.Proofs.Query.Answers
import Mathlib.Algebra.Ring.Nat

/-
  Chains of refinements and limits.

  A refinement keeps the subjects that meet one more condition,
  and leaves the scan alone.  No step depends on those before
  it, so a query offers a chain exactly if it offers each of its
  steps, and what a chain does is fixed by the conditions that
  it adds and by its last limit.

  Key definitions include:
    * `Refinement`
    * `Refinement.Holds`
    * `Query.Step`
    * `Query.Takes`
    * `Query.Chain`
    * `Query.Narrows`
    * `Query.Extends`

  Main declarations:
    * `Query.Takes.narrows`
    * `Query.Chain.extends`
    * `Query.Chain.exists_iff`
    * `Query.Chain.exists_exchanged`
-/

namespace Factbase

------------------------------------------------------------
-- Refinements
------------------------------------------------------------

/- A condition that narrows a query. -/
inductive Refinement where
  | whereEq (predicate : String) (d : Datum)
  | having (predicate : String)
  | lacking (predicate : String)

/- A subject meets the condition of a refinement. -/
def Refinement.Holds
    (ts : List Triple)
    (subject : String) : Refinement → Prop
  | .whereEq predicate d =>
      ∃ v ∈ (encode d).toOption,
        Clause.Holds ts subject ⟨predicate, v⟩
  | .having predicate => HasAny ts subject predicate
  | .lacking predicate => ¬HasAny ts subject predicate

instance
    (ts : List Triple)
    (subject : String)
    (r : Refinement) : Decidable (r.Holds ts subject) :=
  match r with
  | .whereEq predicate d =>
      inferInstanceAs (Decidable (∃ v ∈ (encode d).toOption,
        Clause.Holds ts subject ⟨predicate, v⟩))
  | .having predicate =>
      inferInstanceAs (Decidable (HasAny ts subject predicate))
  | .lacking predicate =>
      inferInstanceAs (Decidable (¬HasAny ts subject predicate))

namespace Query

/- What a caller adds to a query. -/
inductive Step where
  | narrow (r : Refinement)
  | first (count : Nat)

/- The refinements among some steps. -/
def refinements : List Step → List Refinement
  | [] => []
  | .narrow r :: steps => r :: refinements steps
  | .first _ :: steps => refinements steps

/- The last one of the limits among some steps. -/
def lastLimit : List Step → Option Nat
  | [] => none
  | .narrow _ :: steps => lastLimit steps
  | .first count :: steps =>
      (lastLimit steps).or (some count)

/- How many arguments a step adds to the set of a query. -/
def Step.parameters : Step → Nat
  | .narrow (.whereEq _ _) => 2
  | .narrow (.having _) => 1
  | .narrow (.lacking _) => 1
  | .first _ => 0

/- A query offers a step, which leads to another query. -/
inductive Takes : Query → Step → Query → Prop where
  | aboutWhere
      {q q' : AboutQuery}
      {predicate : String}
      {d : Datum}
      (hNarrow : q.whereEq predicate d = .ok q') :
      Takes (.about q) (.narrow (.whereEq predicate d))
        (.about q')
  | matchingWhere
      {q q' : MatchQuery}
      {predicate : String}
      {d : Datum}
      (hNarrow : q.whereEq predicate d = .ok q') :
      Takes (.matching q) (.narrow (.whereEq predicate d))
        (.matching q')
  | matchingHaving (q : MatchQuery) (predicate : String) :
      Takes (.matching q) (.narrow (.having predicate))
        (.matching (q.having predicate))
  | matchingLacking (q : MatchQuery) (predicate : String) :
      Takes (.matching q) (.narrow (.lacking predicate))
        (.matching (q.lacking predicate))
  | rangeWhere
      {q q' : RangeQuery}
      {predicate : String}
      {d : Datum}
      (hNarrow : q.whereEq predicate d = .ok q') :
      Takes (.range q) (.narrow (.whereEq predicate d))
        (.range q')
  | rangeLacking (q : RangeQuery) (predicate : String) :
      Takes (.range q) (.narrow (.lacking predicate))
        (.range (q.lacking predicate))
  | rangeFirst (q : RangeQuery) (count : Nat) :
      Takes (.range q) (.first count) (.range (q.first count))
  | orderWhere
      {q q' : OrderQuery}
      {predicate : String}
      {d : Datum}
      (hNarrow : q.whereEq predicate d = .ok q') :
      Takes (.order q) (.narrow (.whereEq predicate d))
        (.order q')
  | orderLacking (q : OrderQuery) (predicate : String) :
      Takes (.order q) (.narrow (.lacking predicate))
        (.order (q.lacking predicate))

/- A query offers some steps, one after another. -/
inductive Chain : Query → List Step → Query → Prop where
  | nil (q : Query) : Chain q [] q
  | cons
      {q q' q'' : Query}
      {step : Step}
      {steps : List Step}
      (hTakes : q.Takes step q')
      (hChain : Chain q' steps q'') :
      Chain q (step :: steps) q''

/- Two queries that offer the same steps. -/
inductive Alike : Query → Query → Prop where
  | about (q r : AboutQuery) : Alike (.about q) (.about r)
  | matching (q r : MatchQuery) :
      Alike (.matching q) (.matching r)
  | range (q r : RangeQuery) : Alike (.range q) (.range r)
  | order (q r : OrderQuery) : Alike (.order q) (.order r)

end Query

------------------------------------------------------------
-- Encoded Clauses
------------------------------------------------------------

section Clauses

variable {predicate : String}
variable {d : Datum}

/- A required value with a text is one more clause. -/
theorem AboutQuery.whereEq_eq_ok_iff
    {q q' : AboutQuery} :
    q.whereEq predicate d = .ok q' ↔
      ∃ v, encode d = .ok v ∧
        { q with wheres := q.wheres ++ [⟨predicate, v⟩] } =
          q' := by
  rw [whereEq, Clause.encoding]
  cases encode d <;> simp [bind, Except.bind]

theorem MatchQuery.whereEq_eq_ok_iff
    {q q' : MatchQuery} :
    q.whereEq predicate d = .ok q' ↔
      ∃ v, encode d = .ok v ∧
        { q with wheres := q.wheres ++ [⟨predicate, v⟩] } =
          q' := by
  rw [whereEq, Clause.encoding]
  cases encode d <;> simp [bind, Except.bind]

theorem RangeQuery.whereEq_eq_ok_iff
    {q q' : RangeQuery} :
    q.whereEq predicate d = .ok q' ↔
      ∃ v, encode d = .ok v ∧
        { q with wheres := q.wheres ++ [⟨predicate, v⟩] } =
          q' := by
  rw [whereEq, Clause.encoding]
  cases encode d <;> simp [bind, Except.bind]

theorem OrderQuery.whereEq_eq_ok_iff
    {q q' : OrderQuery} :
    q.whereEq predicate d = .ok q' ↔
      ∃ v, encode d = .ok v ∧
        { q with wheres := q.wheres ++ [⟨predicate, v⟩] } =
          q' := by
  rw [whereEq, Clause.encoding]
  cases encode d <;> simp [bind, Except.bind]

/- A query can start from a value that has a text. -/
theorem whereEq_eq_ok_iff
    {q : MatchQuery} :
    whereEq predicate d = .ok q ↔
      ∃ v, encode d = .ok v ∧
        ⟨.equals ⟨predicate, v⟩, [], [], []⟩ = q := by
  rw [whereEq, Clause.encoding]
  cases encode d <;> simp [bind, Except.bind]

end Clauses

------------------------------------------------------------
-- One Step
------------------------------------------------------------

namespace Query

/- The names of a query's own sets depend on its shape only. -/
theorem ownNames_eq (q : Query) :
    q.ownNames =
      if q.sets = 0 then []
      else if q.scan? = none then ["candidates"]
      else ["candidates", "ordered_subjects"] := by
  cases q with
  | about q =>
      by_cases hWheres : q.wheres = [] <;>
        simp [ownNames, sets, scan?, hWheres]
  | _ => simp [ownNames, sets, scan?]

/- What a refinement does to a query, of whatever kind it is. -/
structure Narrows
    (q : Query)
    (r : Refinement)
    (q' : Query) : Prop where
  scan : q'.scan? = q.scan?
  limit : q'.limit? = q.limit?
  sets : q'.sets = q.sets + 1
  selects :
    ∀ ts s, q'.Selects ts s ↔ q.Selects ts s ∧ r.Holds ts s

variable {q q' : Query}
variable {ts : List Triple}
variable {subject : String}

/- Queries of one kind combine one set for each condition added. -/
theorem Alike.sets_eq (hAlike : q.Alike q') :
    q'.sets +
        (q.wheres.length + q.has.length + q.without.length) =
      q.sets +
        (q'.wheres.length + q'.has.length +
          q'.without.length) := by
  cases hAlike with
  | about q r => exact Nat.add_comm _ _
  | _ =>
      simp only [sets, wheres, has, without, List.length_nil]
      omega

/- A refinement only adds conditions, and those say what it says. -/
theorem Narrows.of_added
    {r : Refinement}
    {cs : List Clause}
    {required excluded : List String}
    (hAlike : q.Alike q')
    (hScan : q'.scan? = q.scan?)
    (hLimit : q'.limit? = q.limit?)
    (hStarts : ∀ ts s, q'.Starts ts s ↔ q.Starts ts s)
    (hWheres : q'.wheres = q.wheres ++ cs)
    (hHas : q'.has = q.has ++ required)
    (hWithout : q'.without = q.without ++ excluded)
    (hOne : cs.length + required.length + excluded.length = 1)
    (hHolds : ∀ ts s, r.Holds ts s ↔
      (∀ c ∈ cs, c.Holds ts s) ∧
        (∀ predicate ∈ required, HasAny ts s predicate) ∧
        ∀ predicate ∈ excluded, ¬HasAny ts s predicate) :
    q.Narrows r q' where
  scan := hScan
  limit := hLimit
  sets := by
    have hSets := hAlike.sets_eq
    simp only [hWheres, hHas, hWithout, List.length_append]
      at hSets
    omega
  selects ts s := by
    simp only [Selects, hStarts, hWheres, hHas, hWithout, hHolds,
      List.forall_mem_append]
    tauto

/- A required value asks for the triple with its text. -/
theorem holds_whereEq_iff
    {predicate v : String}
    {d : Datum}
    (hEncode : encode d = .ok v) :
    (Refinement.whereEq predicate d).Holds ts subject ↔
      Clause.Holds ts subject ⟨predicate, v⟩ := by
  simp [Refinement.Holds, hEncode, Except.toOption]

/- A further required value is the condition of its refinement. -/
theorem Narrows.of_where
    {predicate v : String}
    {d : Datum}
    (hEncode : encode d = .ok v)
    (hAlike : q.Alike q')
    (hScan : q'.scan? = q.scan?)
    (hLimit : q'.limit? = q.limit?)
    (hStarts : ∀ ts s, q'.Starts ts s ↔ q.Starts ts s)
    (hWheres : q'.wheres = q.wheres ++ [⟨predicate, v⟩])
    (hHas : q'.has = q.has)
    (hWithout : q'.without = q.without) :
    q.Narrows (.whereEq predicate d) q' := by
  apply Narrows.of_added hAlike hScan hLimit hStarts hWheres
    (hHas.trans (List.append_nil _).symm)
    (hWithout.trans (List.append_nil _).symm) rfl
  intro ts s
  simp [holds_whereEq_iff hEncode]

/- So is a further predicate that is forbidden. -/
theorem Narrows.of_lacking
    {predicate : String}
    (hAlike : q.Alike q')
    (hScan : q'.scan? = q.scan?)
    (hLimit : q'.limit? = q.limit?)
    (hStarts : ∀ ts s, q'.Starts ts s ↔ q.Starts ts s)
    (hWheres : q'.wheres = q.wheres)
    (hHas : q'.has = q.has)
    (hWithout : q'.without = q.without ++ [predicate]) :
    q.Narrows (.lacking predicate) q' := by
  apply Narrows.of_added hAlike hScan hLimit hStarts
    (hWheres.trans (List.append_nil _).symm)
    (hHas.trans (List.append_nil _).symm) hWithout rfl
  intro ts s
  simp [Refinement.Holds]

/- Each step that narrows a query adds one condition to it. -/
theorem Takes.narrows
    {r : Refinement}
    (hTakes : q.Takes (.narrow r) q') :
    q.Narrows r q' := by
  cases hTakes with
  | aboutWhere hNarrow =>
      rcases AboutQuery.whereEq_eq_ok_iff.mp hNarrow with
        ⟨v, hEncode, rfl⟩
      exact .of_where hEncode (.about _ _) rfl rfl
        (fun _ _ => Iff.rfl) rfl rfl rfl
  | matchingWhere hNarrow =>
      rcases MatchQuery.whereEq_eq_ok_iff.mp hNarrow with
        ⟨v, hEncode, rfl⟩
      exact .of_where hEncode (.matching _ _) rfl rfl
        (fun _ _ => Iff.rfl) rfl rfl rfl
  | matchingHaving q predicate =>
      refine .of_added (.matching _ _) rfl rfl
        (fun _ _ => Iff.rfl) (List.append_nil _).symm rfl
        (List.append_nil _).symm rfl ?_
      intro ts s
      simp [Refinement.Holds]
  | matchingLacking q predicate =>
      exact .of_lacking (.matching _ _) rfl rfl
        (fun _ _ => Iff.rfl) rfl rfl rfl
  | rangeWhere hNarrow =>
      rcases RangeQuery.whereEq_eq_ok_iff.mp hNarrow with
        ⟨v, hEncode, rfl⟩
      exact .of_where hEncode (.range _ _) rfl rfl
        (fun _ _ => Iff.rfl) rfl rfl rfl
  | rangeLacking q predicate =>
      exact .of_lacking (.range _ _) rfl rfl
        (fun _ _ => Iff.rfl) rfl rfl rfl
  | orderWhere hNarrow =>
      rcases OrderQuery.whereEq_eq_ok_iff.mp hNarrow with
        ⟨v, hEncode, rfl⟩
      exact .of_where hEncode (.order _ _) rfl rfl
        (fun _ _ => Iff.rfl) rfl rfl rfl
  | orderLacking q predicate =>
      exact .of_lacking (.order _ _) rfl rfl
        (fun _ _ => Iff.rfl) rfl rfl rfl

/- Only ranges have limits. -/
theorem Takes.first_cases
    {count : Nat}
    (hTakes : q.Takes (.first count) q') :
    ∃ r, q = .range r ∧ q' = .range (r.first count) := by
  cases hTakes with
  | rangeFirst r _ => exact ⟨r, rfl, rfl⟩

/- Conditions that are added add their arguments. -/
theorem parameters_of_added
    {n m k : Nat}
    (hStart : q'.startParameters = q.startParameters)
    (hWheres : q'.wheres.length = q.wheres.length + n)
    (hHas : q'.has.length = q.has.length + m)
    (hWithout : q'.without.length = q.without.length + k) :
    q'.parameters = q.parameters + (2 * n + m + k) := by
  rw [parameters, parameters, hStart, hWheres, hHas, hWithout]
  omega

/- Each step adds its arguments, and a limit has none here. -/
theorem Takes.parameters_eq
    {step : Step}
    (hTakes : q.Takes step q') :
    q'.parameters = q.parameters + step.parameters := by
  cases hTakes with
  | aboutWhere hNarrow =>
      rcases AboutQuery.whereEq_eq_ok_iff.mp hNarrow with
        ⟨v, _, rfl⟩
      exact parameters_of_added (n := 1) (m := 0) (k := 0)
        rfl List.length_append rfl rfl
  | matchingWhere hNarrow =>
      rcases MatchQuery.whereEq_eq_ok_iff.mp hNarrow with
        ⟨v, _, rfl⟩
      exact parameters_of_added (n := 1) (m := 0) (k := 0)
        rfl List.length_append rfl rfl
  | rangeWhere hNarrow =>
      rcases RangeQuery.whereEq_eq_ok_iff.mp hNarrow with
        ⟨v, _, rfl⟩
      exact parameters_of_added (n := 1) (m := 0) (k := 0)
        rfl List.length_append rfl rfl
  | orderWhere hNarrow =>
      rcases OrderQuery.whereEq_eq_ok_iff.mp hNarrow with
        ⟨v, _, rfl⟩
      exact parameters_of_added (n := 1) (m := 0) (k := 0)
        rfl List.length_append rfl rfl
  | matchingHaving =>
      exact parameters_of_added (n := 0) (m := 1) (k := 0)
        rfl rfl List.length_append rfl
  | matchingLacking | rangeLacking | orderLacking =>
      exact parameters_of_added (n := 0) (m := 0) (k := 1)
        rfl rfl rfl List.length_append
  | rangeFirst =>
      exact parameters_of_added (n := 0) (m := 0) (k := 0)
        rfl rfl rfl rfl

theorem Alike.symm (hAlike : q.Alike q') : q'.Alike q := by
  cases hAlike <;> constructor

theorem Takes.alike
    {step : Step}
    (hTakes : q.Takes step q') : q.Alike q' := by
  cases hTakes <;> constructor

/- A step that one query offers is offered by all alike. -/
theorem Takes.transfer
    {r : Query}
    {step : Step}
    (hTakes : q.Takes step q')
    (hAlike : q.Alike r) : ∃ r', r.Takes step r' := by
  cases hTakes with
  | aboutWhere hNarrow =>
      rcases AboutQuery.whereEq_eq_ok_iff.mp hNarrow with
        ⟨v, hEncode, _⟩
      cases hAlike
      exact ⟨_, .aboutWhere
        (AboutQuery.whereEq_eq_ok_iff.mpr ⟨v, hEncode, rfl⟩)⟩
  | matchingWhere hNarrow =>
      rcases MatchQuery.whereEq_eq_ok_iff.mp hNarrow with
        ⟨v, hEncode, _⟩
      cases hAlike
      exact ⟨_, .matchingWhere
        (MatchQuery.whereEq_eq_ok_iff.mpr ⟨v, hEncode, rfl⟩)⟩
  | rangeWhere hNarrow =>
      rcases RangeQuery.whereEq_eq_ok_iff.mp hNarrow with
        ⟨v, hEncode, _⟩
      cases hAlike
      exact ⟨_, .rangeWhere
        (RangeQuery.whereEq_eq_ok_iff.mpr ⟨v, hEncode, rfl⟩)⟩
  | orderWhere hNarrow =>
      rcases OrderQuery.whereEq_eq_ok_iff.mp hNarrow with
        ⟨v, hEncode, _⟩
      cases hAlike
      exact ⟨_, .orderWhere
        (OrderQuery.whereEq_eq_ok_iff.mpr ⟨v, hEncode, rfl⟩)⟩
  | matchingHaving q predicate =>
      cases hAlike
      exact ⟨_, .matchingHaving _ predicate⟩
  | matchingLacking q predicate =>
      cases hAlike
      exact ⟨_, .matchingLacking _ predicate⟩
  | rangeLacking q predicate =>
      cases hAlike
      exact ⟨_, .rangeLacking _ predicate⟩
  | rangeFirst q count =>
      cases hAlike
      exact ⟨_, .rangeFirst _ count⟩
  | orderLacking q predicate =>
      cases hAlike
      exact ⟨_, .orderLacking _ predicate⟩

------------------------------------------------------------
-- Chains of Steps
------------------------------------------------------------

theorem mem_refinements_iff
    {r : Refinement}
    {steps : List Step} :
    r ∈ refinements steps ↔ .narrow r ∈ steps := by
  induction steps with
  | nil => simp [refinements]
  | cons step steps ih =>
      cases step <;> simp [refinements, ih]

theorem lastLimit_eq_none_iff {steps : List Step} :
    lastLimit steps = none ↔
      ∀ count, .first count ∉ steps := by
  induction steps with
  | nil => simp [lastLimit]
  | cons step steps ih =>
      cases step with
      | narrow r => simp [lastLimit, ih]
      | first count =>
          simp only [lastLimit, Option.or_eq_none_iff,
            reduceCtorEq, and_false, false_iff]
          intro hNone
          exact hNone count (by simp)

/- What a chain of steps does to a query. -/
structure Extends
    (q : Query)
    (steps : List Step)
    (q' : Query) : Prop where
  scan : q'.scan? = q.scan?
  limit :
    q'.limit? =
      ((lastLimit steps).map
        (min · RangeQuery.greatestLimit)).or q.limit?
  sets : q'.sets = q.sets + (refinements steps).length
  selects :
    ∀ ts s, q'.Selects ts s ↔ q.Selects ts s ∧
      ∀ r ∈ refinements steps, r.Holds ts s

/- The induction is on the chain, one step at a time. -/
theorem Chain.extends
    {steps : List Step}
    (hChain : q.Chain steps q') : q.Extends steps q' := by
  induction hChain with
  | nil q => exact ⟨rfl, rfl, rfl, by simp [refinements]⟩
  | @cons q q' q'' step steps hTakes _ ih =>
      cases step with
      | narrow r =>
          have hNarrows := hTakes.narrows
          refine ⟨?_, ?_, ?_, ?_⟩
          · rw [ih.scan, hNarrows.scan]
          · rw [ih.limit, hNarrows.limit]
            rfl
          · rw [ih.sets, hNarrows.sets]
            simp only [refinements, List.length_cons]
            omega
          · intro ts s
            rw [ih.selects, hNarrows.selects, and_assoc]
            simp [refinements]
      | first count =>
          rcases hTakes.first_cases with ⟨r, rfl, rfl⟩
          refine ⟨ih.scan, ?_, ih.sets, ih.selects⟩
          rw [ih.limit, lastLimit]
          cases lastLimit steps <;> rfl

/- A chain adds the arguments of its steps. -/
theorem Chain.parameters_eq
    {steps : List Step}
    (hChain : q.Chain steps q') :
    q'.parameters =
      q.parameters + (steps.map Step.parameters).sum := by
  induction hChain with
  | nil q => rfl
  | cons hTakes _ ih =>
      rw [ih, hTakes.parameters_eq, List.map_cons, List.sum_cons,
        Nat.add_assoc]

/-
  A query offers a chain exactly if it offers each of its steps:
  no step depends on those before it.
-/
theorem Chain.exists_iff {steps : List Step} :
    (∃ q', q.Chain steps q') ↔
      ∀ step ∈ steps, ∃ q', q.Takes step q' := by
  constructor
  · rintro ⟨q', hChain⟩
    induction hChain with
    | nil q => simp
    | cons hTakes _ ih =>
        intro step hStep
        rcases List.mem_cons.mp hStep with rfl | hLater
        · exact ⟨_, hTakes⟩
        · rcases ih step hLater with ⟨_, hTakes'⟩
          exact hTakes'.transfer hTakes.alike.symm
  · intro hOffers
    induction steps generalizing q with
    | nil => exact ⟨q, .nil q⟩
    | cons step steps ih =>
        rcases hOffers step (by simp) with ⟨q', hTakes⟩
        have hRest : ∀ step ∈ steps, ∃ r, q'.Takes step r := by
          intro step' hStep
          rcases hOffers step' (List.mem_cons_of_mem _ hStep)
            with ⟨_, hTakes'⟩
          exact hTakes'.transfer hTakes.alike
        rcases ih hRest with ⟨q'', hChain⟩
        exact ⟨q'', .cons hTakes hChain⟩

/- Steps of the same effect are offered together. -/
theorem Chain.exists_of_same
    {steps steps' : List Step}
    (hChain : q.Chain steps q')
    (hSame :
      ∀ r, r ∈ refinements steps ↔ r ∈ refinements steps')
    (hLast : lastLimit steps = lastLimit steps') :
    ∃ q'', q.Chain steps' q'' := by
  have hOffers := Chain.exists_iff.mp ⟨q', hChain⟩
  apply Chain.exists_iff.mpr
  intro step hStep
  cases step with
  | narrow r =>
      apply hOffers
      rw [← mem_refinements_iff, hSame, mem_refinements_iff]
      exact hStep
  | first count =>
      have hLimited : lastLimit steps ≠ none := by
        rw [hLast]
        intro hNone
        exact lastLimit_eq_none_iff.mp hNone count hStep
      rw [Ne, lastLimit_eq_none_iff, not_forall_not]
        at hLimited
      rcases hLimited with ⟨count', hStep'⟩
      rcases hOffers _ hStep' with ⟨_, hTakes⟩
      rcases hTakes.first_cases with ⟨r, rfl, _⟩
      exact ⟨_, .rangeFirst r count⟩

------------------------------------------------------------
-- Exchanges
------------------------------------------------------------

theorem refinements_append (xs ys : List Step) :
    refinements (xs ++ ys) =
      refinements xs ++ refinements ys := by
  induction xs with
  | nil => rfl
  | cons step xs ih => cases step <;> simp [refinements, ih]

/- Only ranges have limits, and ranges make scans. -/
theorem limit_eq_none (hFilter : q.scan? = none) :
    q.limit? = none := by
  cases q with
  | range q => cases hFilter
  | _ => rfl

/-
  The value that a query starts from selects as a refinement
  does.
-/
theorem selects_whereEq_iff
    {m : MatchQuery}
    {predicate : String}
    {d : Datum}
    (hStart : Factbase.whereEq predicate d = .ok m) :
    (Query.matching m).Selects ts subject ↔
      (Refinement.whereEq predicate d).Holds ts subject := by
  rcases whereEq_eq_ok_iff.mp hStart with ⟨v, hEncode, rfl⟩
  rw [holds_whereEq_iff hEncode]
  simp [Selects, Starts, wheres, has, without, Primary.Holds]

/-
  A value that is required later can change places with the one
  that a query starts from.
-/
theorem Chain.exists_exchanged
    {m : MatchQuery}
    {predicate predicate' : String}
    {d d' : Datum}
    {earlier later : List Step}
    (hStart : Factbase.whereEq predicate d = .ok m)
    (hChain :
      (Query.matching m).Chain
        (earlier ++ .narrow (.whereEq predicate' d') :: later)
        q') :
    ∃ m' q'',
      Factbase.whereEq predicate' d' = .ok m' ∧
      (Query.matching m').Chain
        (earlier ++ .narrow (.whereEq predicate d) :: later)
        q'' := by
  have hOffers := Chain.exists_iff.mp ⟨q', hChain⟩
  rcases whereEq_eq_ok_iff.mp hStart with ⟨v, hEncode, _⟩
  have hStart' : ∃ m',
      Factbase.whereEq predicate' d' = .ok m' := by
    rcases hOffers (.narrow (.whereEq predicate' d'))
        (by simp) with ⟨_, hTakes⟩
    cases hTakes with
    | matchingWhere hNarrow =>
        rcases MatchQuery.whereEq_eq_ok_iff.mp hNarrow with
          ⟨v', hEncode', _⟩
        exact ⟨_, whereEq_eq_ok_iff.mpr ⟨v', hEncode', rfl⟩⟩
  rcases hStart' with ⟨m', hStart'⟩
  have hChain' : ∃ q'', (Query.matching m').Chain
      (earlier ++ .narrow (.whereEq predicate d) :: later)
      q'' := by
    apply Chain.exists_iff.mpr
    intro step hStep
    have hCases : step = .narrow (.whereEq predicate d) ∨
        step ∈ earlier ++
          .narrow (.whereEq predicate' d') :: later := by
      simp only [List.mem_append, List.mem_cons] at hStep ⊢
      tauto
    rcases hCases with rfl | hOld
    · exact ⟨_, .matchingWhere
        (MatchQuery.whereEq_eq_ok_iff.mpr ⟨v, hEncode, rfl⟩)⟩
    · rcases hOffers step hOld with ⟨_, hTakes⟩
      exact hTakes.transfer (.matching m m')
  rcases hChain' with ⟨q'', hChain'⟩
  exact ⟨m', q'', hStart', hChain'⟩

end Query

end Factbase
