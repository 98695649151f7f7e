import Factbase.Proofs.Query.Chains

/-
  What refined queries list.

  A refinement lists what the query lists of the subjects that
  meet one more condition, in the same order.  Queries that
  agree in their scan, their limit and the subjects they select
  are answered alike, so neither the order nor the number of
  refinements matters, as long as no query combines more sets
  than it may.

  Main declarations:
    * `Store.list_congr`
    * `Store.list_of_narrow`
    * `Store.list_refined`
-/

namespace Factbase

------------------------------------------------------------
-- Lists and Refinements
------------------------------------------------------------

namespace Store

variable {s : Store}
variable {c : Connection}
variable {q q' : Query}

/-
  Queries that agree in their scan, their limit and the subjects
  they select are answered alike, unless only one of them
  combines too many sets, or both do and fail for different
  reasons.
-/
theorem list_congr
    (hReach : c.Reachable)
    (hScan : q.scan? = q'.scan?)
    (hLimit : q.limit? = q'.limit?)
    (hNone : q.sets = 0 ↔ q'.sets = 0)
    (hTerms :
      Database.mostTerms < q.sets ↔ Database.mostTerms < q'.sets)
    (hExcess :
      Database.mostTerms < q.sets → q.excess = q'.excess)
    (hSelects :
      ∀ ts subject, q.Selects ts subject ↔ q'.Selects ts subject) :
    (s.list q).on c = (s.list q').on c ∧
      (s.any q).on c = (s.any q').on c := by
  have hNames : q.ownNames = q'.ownNames := by
    simp only [Query.ownNames_eq, hScan, hNone]
  have hPrepare :
      c.content.prepare s.collection q.statement.template =
        c.content.prepare s.collection
          q'.statement.template := by
    rw [prepare_eq, prepare_eq, hNames]
    by_cases hMany : Database.mostTerms < q.sets
    · rw [if_pos hMany, if_pos (hTerms.mp hMany), hExcess hMany]
    · rw [if_neg hMany, if_neg (mt hTerms.mpr hMany)]
  cases hRows : c.content.prepare s.collection
      q'.statement.template with
  | error fault =>
      rw [on_list, on_list, on_any, on_any, hPrepare, hRows]
      exact ⟨rfl, rfl⟩
  | ok rows =>
      have hAnswers' := answers_of_prepare hRows
      have hAnswers := answers_of_prepare (hPrepare.trans hRows)
      rcases exists_lists hReach hAnswers.table with
        ⟨ts, _, _, hLists⟩
      rcases hLists q hAnswers with ⟨us, hUs, hList⟩
      rcases hLists q' hAnswers' with ⟨us', hUs', hList'⟩
      have hSame : us = us' :=
        hUs.unique hUs' hScan hLimit (hSelects ts)
      rw [on_any_of_list hList, on_any_of_list hList', hList,
        hList', hSame]
      exact ⟨rfl, rfl⟩

/- A query is answered if one that refines it is. -/
theorem Answers.of_narrows
    {r : Refinement}
    (hAnswers : s.Answers c q')
    (hNarrows : q.Narrows r q') : s.Answers c q where
  table := hAnswers.table
  terms := by
    have hTerms := hAnswers.terms
    rw [hNarrows.sets] at hTerms
    omega
  name := by
    have hName := hAnswers.name
    rw [Query.ownNames_eq, hNarrows.sets, hNarrows.scan,
      if_neg (Nat.succ_ne_zero _)] at hName
    rw [Query.ownNames_eq]
    by_cases hNone : q.sets = 0
    · rw [if_pos hNone]
      exact List.not_mem_nil
    · rw [if_neg hNone]
      exact hName

/- A query that combines too many sets fails. -/
theorem on_list_of_terms
    (hTerms : Database.mostTerms < q.sets) :
    (s.list q).on c = (.error (.execution q.excess), c) ∧
      (s.any q).on c = (.error (.execution q.excess), c) := by
  rw [on_list, on_any, prepare_eq, if_pos hTerms]
  exact ⟨rfl, rfl⟩

/- A refinement lists what the query lists of some subjects. -/
theorem list_of_narrow
    {r : Refinement}
    (hReach : c.Reachable)
    (hLimit : q.limit? = none)
    (hNarrows : q.Narrows r q')
    (hAnswers' : s.Answers c q') :
    ∃ ts us,
      (s.list .all).on c = (.ok ts, c) ∧
      (s.list q).on c = (.ok us, c) ∧
      (s.list q').on c =
        (.ok (us.filter fun t => r.Holds ts t.subject), c) := by
  have hAnswers := hAnswers'.of_narrows hNarrows
  rcases exists_lists hReach hAnswers.table with
    ⟨ts, hAll, _, hLists⟩
  rcases hLists q hAnswers with ⟨us, hUs, hList⟩
  rcases hLists q' hAnswers' with ⟨us', hUs', hList'⟩
  have hFilter := hUs.filter hNarrows.scan hLimit
    (hNarrows.limit.trans hLimit)
    (fun subject => r.Holds ts subject)
    (fun subject => by
      rw [hNarrows.selects, decide_eq_true_eq])
  have hSame := hUs'.unique hFilter rfl rfl fun _ => Iff.rfl
  rw [hSame] at hList'
  exact ⟨ts, us, hAll, hList, hList'⟩

/- Chains with the same refinements and limit are answered alike. -/
theorem list_of_extends
    {q'' : Query}
    {steps steps' : List Query.Step}
    (hReach : c.Reachable)
    (hExtends : q.Extends steps q')
    (hExtends' : q.Extends steps' q'')
    (hSame :
      ∀ r, r ∈ Query.refinements steps ↔
        r ∈ Query.refinements steps')
    (hLast : Query.lastLimit steps = Query.lastLimit steps')
    (hTerms :
      Database.mostTerms < q'.sets ↔
        Database.mostTerms < q''.sets)
    (hExcess :
      Database.mostTerms < q'.sets → q'.excess = q''.excess) :
    (s.list q').on c = (s.list q'').on c ∧
      (s.any q').on c = (s.any q'').on c := by
  apply list_congr hReach ?_ ?_ ?_ hTerms hExcess ?_
  · rw [hExtends.scan, hExtends'.scan]
  · rw [hExtends.limit, hExtends'.limit, hLast]
  · have hEmpty : Query.refinements steps = [] ↔
        Query.refinements steps' = [] := by
      simp only [List.eq_nil_iff_forall_not_mem, hSame]
    rw [← List.length_eq_zero_iff, ← List.length_eq_zero_iff]
      at hEmpty
    rw [hExtends.sets, hExtends'.sets]
    omega
  · intro ts subject
    simp only [hExtends.selects, hExtends'.selects, hSame]

/- Chains with two required values exchanged are answered alike. -/
theorem list_of_exchange
    {m m' : MatchQuery}
    {predicate predicate' : String}
    {d d' : Datum}
    {earlier later : List Query.Step}
    (hReach : c.Reachable)
    (hStart : whereEq predicate d = .ok m)
    (hStart' : whereEq predicate' d' = .ok m')
    (hChain :
      (Query.matching m).Chain
        (earlier ++ .narrow (.whereEq predicate' d') :: later)
        q)
    (hChain' :
      (Query.matching m').Chain
        (earlier ++ .narrow (.whereEq predicate d) :: later)
        q') :
    (s.list q).on c = (s.list q').on c ∧
      (s.any q).on c = (s.any q').on c := by
  have hExtends := hChain.extends
  have hExtends' := hChain'.extends
  have hSets : q.sets = q'.sets := by
    rw [hExtends.sets, hExtends'.sets,
      Query.refinements_append, Query.refinements_append]
    rcases whereEq_eq_ok_iff.mp hStart with ⟨_, _, rfl⟩
    rcases whereEq_eq_ok_iff.mp hStart' with ⟨_, _, rfl⟩
    simp [Query.sets, Query.refinements, Query.wheres,
      Query.has, Query.without]
  have hExcess : q.excess = q'.excess := by
    rw [Query.excess, Query.excess, hChain.parameters_eq,
      hChain'.parameters_eq]
    rcases whereEq_eq_ok_iff.mp hStart with ⟨_, _, rfl⟩
    rcases whereEq_eq_ok_iff.mp hStart' with ⟨_, _, rfl⟩
    simp [Query.parameters, Query.startParameters, Primary.test,
      Clause.test, Query.Step.parameters, Query.wheres, Query.has,
      Query.without]
  apply list_congr hReach
    (hExtends.scan.trans hExtends'.scan.symm) ?_
    (by rw [hSets]) (by rw [hSets]) (fun _ => hExcess) ?_
  · rw [Query.limit_eq_none hExtends.scan,
      Query.limit_eq_none hExtends'.scan]
  · intro ts subject
    rw [hExtends.selects, hExtends'.selects,
      Query.selects_whereEq_iff hStart,
      Query.selects_whereEq_iff hStart',
      Query.refinements_append, Query.refinements_append]
    simp only [List.forall_mem_append, Query.refinements,
      List.forall_mem_cons]
    tauto

/-
  On any reachable connection, a refinement of a query without
  a limit lists what the query lists of the subjects that meet
  the refinement, in the same order.  If it combines too many
  sets, it fails.  Steps that add the same refinements, in any
  order and any number, and end in the same limit lead to the
  same list and the same existence, unless only one query fails
  in this way, or both do and for different reasons.  So does a
  chain in which a required value and the one that a query starts
  from change places.
-/
theorem list_refined
    (s : Store)
    (c : Connection)
    (hReach : c.Reachable) :
    (∀ (q q' : Query) (r : Refinement),
      q.limit? = none →
      q.Takes (.narrow r) q' →
      (s.Answers c q' →
        ∃ ts us,
          (s.list .all).on c = (.ok ts, c) ∧
          (s.list q).on c = (.ok us, c) ∧
          (s.list q').on c =
            (.ok (us.filter fun t => r.Holds ts t.subject),
              c)) ∧
      (Database.mostTerms < q'.sets →
        (s.list q').on c =
            (.error (.execution q'.excess), c) ∧
          (s.any q').on c =
            (.error (.execution q'.excess), c))) ∧
    (∀ (q q' : Query) (steps steps' : List Query.Step),
      q.Chain steps q' →
      (∀ r, r ∈ Query.refinements steps ↔
        r ∈ Query.refinements steps') →
      Query.lastLimit steps = Query.lastLimit steps' →
      ∃ q'', q.Chain steps' q'' ∧
        ((Database.mostTerms < q'.sets ↔
            Database.mostTerms < q''.sets) →
          (Database.mostTerms < q'.sets →
            q'.excess = q''.excess) →
          (s.list q').on c = (s.list q'').on c ∧
          (s.any q').on c = (s.any q'').on c)) ∧
    ∀ (predicate predicate' : String) (d d' : Datum)
      (m : MatchQuery) (earlier later : List Query.Step)
      (q' : Query),
      whereEq predicate d = .ok m →
      (Query.matching m).Chain
        (earlier ++ .narrow (.whereEq predicate' d') :: later)
        q' →
      ∃ m' q'',
        whereEq predicate' d' = .ok m' ∧
        (Query.matching m').Chain
          (earlier ++ .narrow (.whereEq predicate d) :: later)
          q'' ∧
        (s.list q').on c = (s.list q'').on c ∧
        (s.any q').on c = (s.any q'').on c := by
  refine ⟨?_, ?_, ?_⟩
  · intro q q' r hLimit hTakes
    exact ⟨list_of_narrow hReach hLimit hTakes.narrows,
      on_list_of_terms⟩
  · intro q q' steps steps' hChain hSame hLast
    rcases hChain.exists_of_same hSame hLast with
      ⟨q'', hChain'⟩
    exact ⟨q'', hChain', list_of_extends hReach
      hChain.extends hChain'.extends hSame hLast⟩
  · intro predicate predicate' d d' m earlier later q' hStart
      hChain
    rcases hChain.exists_exchanged hStart with
      ⟨m', q'', hStart', hChain'⟩
    exact ⟨m', q'', hStart', hChain', list_of_exchange hReach
      hStart hStart' hChain hChain'⟩

/-
  A scan of two subjects and its refinement, the same refinement
  and limit in another order and twice, and two required values
  exchanged.
-/
theorem list_refined_people :
    let people := (runAll ⟨"people"⟩
      [.set "ann" "age" (.integer 24),
        .set "ann" "tag" (.bool true),
        .set "bob" "age" (.integer 23)]
      (.fresh "people")).2
    let r : RangeQuery :=
      ⟨"age", "20", .ascending, none, [], []⟩
    let tagged : MatchQuery :=
      ⟨.equals ⟨"tag", "true"⟩, [⟨"age", "24"⟩], [], []⟩
    let aged : MatchQuery :=
      ⟨.equals ⟨"age", "24"⟩, [⟨"tag", "true"⟩], [], []⟩
    (∃ ts us,
      (list ⟨"people"⟩ .all).on people = (.ok ts, people) ∧
      (list ⟨"people"⟩ (.range r)).on people =
        (.ok us, people) ∧
      (list ⟨"people"⟩ (.range (r.lacking "tag"))).on people =
        (.ok (us.filter fun t =>
          (Refinement.lacking "tag").Holds ts t.subject),
          people)) ∧
    (list ⟨"people"⟩ (.range
        (((r.first 5).lacking "tag").first 1))).on people =
      (list ⟨"people"⟩ (.range
        (((r.first 1).lacking "tag").lacking "tag"))).on
          people ∧
    (list ⟨"people"⟩ (.matching tagged)).on people =
      (list ⟨"people"⟩ (.matching aged)).on people := by
  intro people r tagged aged
  have hFold : foldName "people" = "people" :=
    foldName_eq_self rfl
  have hReach : people.Reachable :=
    (Connection.reachable_fresh (by decide) hFold
      (by decide)).runAll _ _
  have hTable : people.content.hasTable "people" = true :=
    hasTable_runAll (Connection.hasTable_fresh hFold) _
  rcases list_refined ⟨"people"⟩ people hReach with
    ⟨hNarrow, hChains, hExchange⟩
  refine ⟨?_, ?_, ?_⟩
  · exact (hNarrow (.range r) _ _ rfl
      (.rangeLacking r "tag")).1
        ⟨hTable, by decide, by rw [hFold]; decide⟩
  · rcases hChains (.range r) _
        [.first 5, .narrow (.lacking "tag"), .first 1]
        [.first 1, .narrow (.lacking "tag"),
          .narrow (.lacking "tag")]
        (.cons (.rangeFirst _ _) (.cons (.rangeLacking _ _)
          (.cons (.rangeFirst _ _) (.nil _))))
        (by simp [Query.refinements]) rfl with
      ⟨q'', hChain, hSame⟩
    cases hChain with | cons hFirst hChain =>
    cases hFirst
    cases hChain with | cons hSecond hChain =>
    cases hSecond
    cases hChain with | cons hThird hChain =>
    cases hThird
    cases hChain
    exact (hSame (by decide) (by decide)).1
  · have hAge : encode (.integer 24) = .ok "24" := by decide
    have hTag : encode (.bool true) = .ok "true" := by decide
    rcases hExchange "tag" "age" (.bool true) (.integer 24)
        ⟨.equals ⟨"tag", "true"⟩, [], [], []⟩ [] []
        (.matching tagged)
        (whereEq_eq_ok_iff.mpr ⟨_, hTag, rfl⟩)
        (.cons (.matchingWhere
          (MatchQuery.whereEq_eq_ok_iff.mpr ⟨_, hAge, rfl⟩))
          (.nil _)) with
      ⟨m', q'', hStart', hChain, hSame, _⟩
    rcases whereEq_eq_ok_iff.mp hStart' with ⟨v, hValue, rfl⟩
    cases hChain with | cons hTakes hChain =>
    cases hTakes with | matchingWhere hNarrow =>
    cases hChain
    rcases MatchQuery.whereEq_eq_ok_iff.mp hNarrow with
      ⟨w, hValue', rfl⟩
    rw [hAge, Except.ok.injEq] at hValue
    rw [hTag, Except.ok.injEq] at hValue'
    rw [← hValue, ← hValue'] at hSame
    exact hSame

/-
  A list of 500 sets cannot be refined, although the only
  subject listed meets the refinement.
-/
theorem list_refined_many_wheres :
    let q : MatchQuery :=
      ⟨.equals ⟨"age", "null"⟩,
        List.replicate 499 ⟨"age", "null"⟩, [], []⟩
    let people := ((Command.set "ann" "age" .unit).action
      ⟨"people"⟩).on (.fresh "people") |>.2
    people.Reachable ∧
      (list ⟨"people"⟩ .all).on people =
        (.ok [⟨"ann", "age", "null"⟩], people) ∧
      (list ⟨"people"⟩ (.matching q)).on people =
        (.ok [⟨"ann", "age", "null"⟩], people) ∧
      (Refinement.whereEq "age" .unit).Holds
        [⟨"ann", "age", "null"⟩] "ann" ∧
      ∃ q', q.whereEq "age" .unit = .ok q' ∧
        (list ⟨"people"⟩ (.matching q')).on people =
          (.error (.execution .tooManyTerms), people) := by
  intro q people
  have hFold : foldName "people" = "people" :=
    foldName_eq_self rfl
  have hSet := on_set (s := ⟨"people"⟩)
    (Connection.rows_fresh hFold) "ann" "age" .unit
  have hRows : people.content.rows "people" =
      .ok [Triple.row ⟨"ann", "age", "null"⟩] := by
    simp only [people, Command.action, hSet]
    exact Connection.rows_alter (Connection.rows_fresh hFold) _
  have hSort : Row.sort [Triple.row ⟨"ann", "age", "null"⟩] =
      [⟨"ann", "age", "null"⟩].map Triple.row :=
    List.mergeSort_singleton _
  have hSelects : (Query.matching q).Selects
      [⟨"ann", "age", "null"⟩] "ann" := by
    refine ⟨List.mem_singleton_self _, ?_, ?_, ?_⟩
    · intro c hClause
      rw [List.eq_of_mem_replicate hClause]
      exact List.mem_singleton_self _
    · simp [q, Query.has]
    · simp [q, Query.without]
  have hSets : (Query.matching q).sets = 500 := by
    have hWheres : q.wheres.length = 499 :=
      List.length_replicate
    change 1 + q.wheres.length + 0 + 0 = 500
    rw [hWheres]
  have hNull : encode .unit = .ok "null" := by decide
  have hNarrow : ∃ q', q.whereEq "age" .unit = .ok q' :=
    ⟨_, MatchQuery.whereEq_eq_ok_iff.mpr ⟨_, hNull, rfl⟩⟩
  rcases hNarrow with ⟨q', hNarrow⟩
  refine ⟨?_, on_list_all hRows hSort, ?_,
    (Query.holds_whereEq_iff hNull).mpr
      (List.mem_singleton_self _), q', hNarrow, ?_⟩
  · exact (Connection.reachable_fresh (by decide) hFold
      (by decide)).step (.perform ⟨"people"⟩ _)
  · apply on_list_of_rows hRows
    · exact Nat.le_of_eq hSets
    · rw [hFold]
      decide
    · rw [Query.list_statement hSort rfl]
      simp [hSelects]
  · have hSets' : (Query.matching q').sets = 501 := by
      rw [(Query.Takes.matchingWhere hNarrow).narrows.sets, hSets]
    have hExcess : (Query.matching q').excess = .tooManyTerms := by
      apply Query.excess_of_le
      rw [hSets']
      decide
    rw [← hExcess]
    apply And.left (on_list_of_terms _)
    rw [hSets']
    decide

end Store

end Factbase
