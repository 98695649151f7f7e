import Factbase.Proofs.Grouping.Subjects
import Factbase.Proofs.Query.Answers

/-
  Groups of what a query lists.

  Every query lists the triples of a subject together: by the
  order of all triples, or by the order of the keys that its
  scan ranks subjects by.  So its list can always be grouped.

  Main declarations:
    * `Query.Lists.contiguous`
    * `eraseDups_listing`
    * `Store.group_subjects`
-/

namespace Factbase

variable {ts us : List Triple}
variable {q : Query}

------------------------------------------------------------
-- Contiguous Lists
------------------------------------------------------------

/- The subjects of the list of all triples ascend. -/
theorem subjects_pairwise
    (hAscending : ts.Pairwise fun t u => t.key < u.key) :
    (ts.map Triple.subject).Pairwise
      fun s s' => ¬ utf8 s' < utf8 s := by
  rw [List.pairwise_map]
  apply hAscending.imp
  intro t u hKey
  rcases List.cons_lt_cons_iff.mp hKey with hLess | ⟨hSame, _⟩
  · exact List.lt_asymm hLess
  · rw [hSame]
    exact List.lt_irrefl _

namespace Scan

variable {k : Scan}

/- One subject is ranked before another, or they are the same. -/
def Leads
    (k : Scan)
    (ts : List Triple)
    (s s' : String) : Prop :=
  s = s' ∨ ∃ v v', k.IsKey ts s v ∧ k.IsKey ts s' v' ∧
    k.Precedes (s, v) (s', v')

theorem Leads.antisymm
    {s s' : String}
    (hFirst : k.Leads ts s s')
    (hSecond : k.Leads ts s' s) : s = s' := by
  rcases hFirst with hSame | ⟨v, v', hKey, hKey', hBefore⟩
  · exact hSame
  · rcases hSecond with hSame | ⟨w', w, hW', hW, hAfter⟩
    · exact hSame.symm
    · rw [hW.unique hKey, hW'.unique hKey'] at hAfter
      exact absurd hAfter hBefore.asymm

variable {ranking places : List (String × String)}

/- The subjects that are listed keep the order of the ranking. -/
theorem IsRanking.leads
    (hRanking : k.IsRanking ts q ranking)
    (hPlaces : places.Sublist ranking) :
    ((listing ts places).map Triple.subject).Pairwise
      (k.Leads ts) := by
  rw [listing, List.map_flatMap, List.pairwise_flatMap]
  constructor
  · intro a _
    rw [List.pairwise_map]
    apply List.pairwise_of_forall_mem_list
    intro t hFirst u hSecond
    rw [List.mem_filter, decide_eq_true_eq] at hFirst hSecond
    exact Or.inl (hFirst.2.trans hSecond.2.symm)
  · apply (hRanking.ordered.sublist hPlaces).imp_of_mem
    intro a b hFirst hSecond hBefore s hOwn s' hOwn'
    rcases List.mem_map.mp hOwn with ⟨t, hTriple, rfl⟩
    rcases List.mem_map.mp hOwn' with ⟨u, hTriple', rfl⟩
    rw [List.mem_filter, decide_eq_true_eq] at hTriple hTriple'
    rw [hTriple.2, hTriple'.2]
    exact Or.inr ⟨a.2, b.2,
      hRanking.keyed a (hPlaces.subset hFirst),
      hRanking.keyed b (hPlaces.subset hSecond), hBefore⟩

end Scan

/- Every query lists the triples of a subject together. -/
theorem Query.Lists.contiguous
    (hLists : q.Lists ts us)
    (hAscending : ts.Pairwise fun t u => t.key < u.key) :
    Contiguous (us.map Triple.subject) := by
  cases hLists with
  | chosen _ =>
      exact contiguous_of_pairwise
        (fun _ _ hFirst hSecond =>
          eq_of_not_utf8_lt hSecond hFirst)
        (subjects_pairwise (hAscending.filter _))
  | ranked _ hRanking =>
      exact contiguous_of_pairwise
        (fun _ _ => Scan.Leads.antisymm)
        (hRanking.leads (cutTo_sublist _ _))

------------------------------------------------------------
-- Subjects of a Listing
------------------------------------------------------------

/- A run of one value is left once, before what follows it. -/
theorem eraseDups_run_append
    {α : Type} [DecidableEq α]
    {x : α}
    {xs ys : List α}
    (hSome : xs ≠ [])
    (hRun : ∀ y ∈ xs, y = x)
    (hOthers : x ∉ ys) :
    (xs ++ ys).eraseDups = x :: ys.eraseDups := by
  rcases xs with _ | ⟨x', xs⟩
  · exact absurd rfl hSome
  · have hHead : x' = x := hRun x' (by simp)
    have hRest : xs.filter (fun y => !y == x) = [] := by
      rw [List.filter_eq_nil_iff]
      intro y hMember
      simp [hRun y (List.mem_cons_of_mem _ hMember)]
    have hKept : ys.filter (fun y => !y == x) = ys := by
      rw [List.filter_eq_self]
      intro y hMember
      have hOther : y ≠ x := by
        rintro rfl
        exact hOthers hMember
      simp [hOther]
    rw [hHead, List.cons_append, List.eraseDups_cons,
      List.filter_append, hRest, hKept, List.nil_append]

/- The subjects that are listed are those of the ranking. -/
theorem eraseDups_listing
    {places : List (String × String)}
    (hOnce : (places.map Prod.fst).Nodup)
    (hThere : ∀ a ∈ places, ∃ t ∈ ts, t.subject = a.1) :
    ((listing ts places).map Triple.subject).eraseDups =
      places.map Prod.fst := by
  induction places with
  | nil => rfl
  | cons a places ih =>
      rw [List.map_cons, List.nodup_cons] at hOnce
      rw [List.forall_mem_cons] at hThere
      rw [listing_cons, List.map_append, List.map_cons,
        ← ih hOnce.2 hThere.2]
      apply eraseDups_run_append
      · rcases hThere.1 with ⟨t, hTriple, hSubject⟩
        apply List.ne_nil_of_mem (a := t.subject)
        apply List.mem_map_of_mem
        simp [hTriple, hSubject]
      · intro s hOwn
        rcases List.mem_map.mp hOwn with ⟨t, hTriple, rfl⟩
        simpa using (List.mem_filter.mp hTriple).2
      · intro hLater
        rw [← List.mem_eraseDups, ih hOnce.2 hThere.2] at hLater
        exact hOnce.1 hLater

------------------------------------------------------------
-- Groups of Lists
------------------------------------------------------------

namespace Store

/- The groups of a query are those of what it lists. -/
theorem on_group
    {s : Store}
    {c : Connection}
    {us : List Triple}
    (hList : (s.list q).on c = (.ok us, c)) :
    (s.group q).on c = (grouped us, c) := by
  rw [Store.group, Action.on_bind_ok hList, Action.on_lift]

/- A query that fails has no groups. -/
theorem on_group_of_error
    {s : Store}
    {c : Connection}
    {e : StoreError}
    (hList : (s.list q).on c = (.error e, c)) :
    (s.group q).on c = (.error e, c) := by
  rw [Store.group, Action.on_bind, hList]

/-
  On any reachable connection, what a query lists can always be
  grouped, and has one group for each subject, in the order that
  the subjects are listed in.  For a scan this is the order of
  its ranking, cut to its limit.  A query that is not answered
  fails in the database and has nothing to group.
-/
theorem group_subjects
    (s : Store)
    (c : Connection)
    (hReach : c.Reachable)
    (q : Query) :
    (s.Answers c q →
      ∃ ts us g,
        (s.list .all).on c = (.ok ts, c) ∧
        (s.list q).on c = (.ok us, c) ∧
        grouped us = .ok g ∧
        (s.group q).on c = (.ok g, c) ∧
        (g.groups.map Group.subject).Nodup ∧
        g.groups.map Group.subject =
          (us.map Triple.subject).eraseDups ∧
        ∀ k, q.scan? = some k →
          ∃ ranking, k.IsRanking ts q ranking ∧
            g.groups.map Group.subject =
              (cutTo q.limit? ranking).map Prod.fst) ∧
    (¬ s.Answers c q →
      ∃ fault,
        (s.list q).on c = (.error (.execution fault), c) ∧
        (s.group q).on c = (.error (.execution fault), c)) := by
  constructor
  · intro hAnswers
    rcases exists_lists hReach hAnswers.table with
      ⟨ts, hAll, hAscending, hEach⟩
    rcases hEach q hAnswers with ⟨us, hLists, hList⟩
    rcases exists_grouped (hLists.contiguous hAscending) with
      ⟨g, hGrouped, hSubjects⟩
    have hGroup := on_group hList
    rw [hGrouped] at hGroup
    refine ⟨ts, us, g, hAll, hList, hGrouped, hGroup, ?_,
      hSubjects, ?_⟩
    · rw [hSubjects]
      exact nodup_eraseDups _
    · intro k hScan
      cases hLists with
      | chosen hFilter =>
          rw [hFilter] at hScan
          cases hScan
      | @ranked k' ranking hScan' hRanking =>
          rw [hScan', Option.some.injEq] at hScan
          subst hScan
          refine ⟨ranking, hRanking, ?_⟩
          have hPlaces := cutTo_sublist q.limit? ranking
          rw [hSubjects]
          apply eraseDups_listing
          · exact hRanking.once.sublist (hPlaces.map _)
          · intro a hPlace
            have hKey := hRanking.keyed a (hPlaces.subset hPlace)
            exact ⟨_, hKey.1.1, rfl⟩
  · intro hAnswers
    rcases on_list_of_not_answers hAnswers with ⟨fault, hList⟩
    exact ⟨fault, hList, on_group_of_error hList⟩

/- A subject with two ages has one group, before a younger one. -/
theorem group_subjects_people :
    let people := (runAll ⟨"people"⟩
      [.set "bob" "age" (.integer 25),
        .set "ann" "age" (.integer 20),
        .set "ann" "age" (.integer 31)]
      (.fresh "people")).2
    let q : Query := .order ⟨"age", .descending, [], []⟩
    ∃ ts us g ranking,
      (list ⟨"people"⟩ .all).on people = (.ok ts, people) ∧
      (list ⟨"people"⟩ q).on people = (.ok us, people) ∧
      (group ⟨"people"⟩ q).on people = (.ok g, people) ∧
      Scan.IsRanking ts ⟨"age", none, .descending⟩ q ranking ∧
      g.groups.map Group.subject = ranking.map Prod.fst := by
  intro people q
  have hFold : foldName "people" = "people" :=
    foldName_eq_self rfl
  have hReach : people.Reachable :=
    (Connection.reachable_fresh (by decide) hFold
      (by decide)).runAll _ _
  have hTable : people.content.hasTable "people" = true :=
    hasTable_runAll (Connection.hasTable_fresh hFold) _
  rcases (group_subjects ⟨"people"⟩ people hReach q).1
      ⟨hTable, by decide, by rw [hFold]; decide⟩ with
    ⟨ts, us, g, hAll, hList, _, hGroup, _, _, hRanked⟩
  rcases hRanked _ rfl with ⟨ranking, hRanking, hSubjects⟩
  exact ⟨ts, us, g, ranking, hAll, hList, hGroup, hRanking,
    hSubjects⟩

end Store

end Factbase
