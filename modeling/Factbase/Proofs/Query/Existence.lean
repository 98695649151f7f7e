import Factbase.Proofs.Query.Candidates
import Factbase.Proofs.Store.Reachable

/-
  Whether a query finds anything.

  The statement that tells whether there are any rows leaves out
  the join with the collection, the order and, for one subject,
  the choice of its rows.  It still agrees with the statement
  that yields the rows: every subject that is found, and every
  subject that is ranked, has a row in the collection.

  Main declarations:
    * `Compound.exists_row`
    * `Ranking.exists_row`
    * `Statement.any_eq_true_iff`
    * `Store.any_eq_list_nonempty`
-/

namespace Factbase

variable {rows : List Row}
variable {subject : String}

------------------------------------------------------------
-- Subjects Have Rows
------------------------------------------------------------

theorem Row.mem_join_iff
    {found : List String}
    {r : Row} :
    r ∈ Row.join found rows ↔ r ∈ rows ∧ r.subject ∈ found := by
  simp only [Row.join, List.mem_flatMap, List.mem_map,
    List.mem_filter, decide_eq_true_eq]
  constructor
  · rintro ⟨r', hRow, _, ⟨hFound, rfl⟩, rfl⟩
    exact ⟨hRow, hFound⟩
  · rintro ⟨hRow, hFound⟩
    exact ⟨r, hRow, r.subject, ⟨hFound, rfl⟩, rfl⟩

theorem Test.exists_row
    {t : Test}
    {args : List Arg}
    (hFound : subject ∈ t.subjects args rows) :
    ∃ r ∈ rows, r.subject = subject := by
  rcases Test.mem_subjects_iff.mp hFound with
    ⟨r, hRow, hSubject, _⟩
  exact ⟨r, hRow, hSubject⟩

namespace Compound

/- Further tests only take subjects away. -/
theorem narrow_subset
    (found : List String)
    (rest : List (SetOperator × Test))
    (args : List Arg) :
    narrow rows found rest args ⊆ found := by
  induction rest generalizing found args with
  | nil => exact fun _ hFound => hFound
  | cons term rest ih =>
      rcases term with ⟨op, t⟩
      intro s hNarrowed
      exact (SetOperator.mem_apply_iff.mp (ih _ _ hNarrowed)).1

/- A set holds subjects of the collection only. -/
theorem exists_row
    {c : Compound}
    {args : List Arg}
    (hFound : subject ∈ c.subjects args rows) :
    ∃ r ∈ rows, r.subject = subject :=
  Test.exists_row (narrow_subset _ _ _ hFound)

end Compound

namespace Ranking

theorem cut_subset
    (k : Ranking)
    (args : List Arg)
    (ranked : List Ranked) :
    k.cut args ranked ⊆ ranked := by
  unfold cut
  split
  · exact fun _ hRanked => hRanked
  · exact List.take_subset _ _
  · exact List.nil_subset _

/- A ranking holds subjects of the collection only. -/
theorem exists_row
    {k : Ranking}
    {args : List Arg}
    {found : List String}
    {a : Ranked}
    (hRanked : a ∈ k.order args rows found) :
    ∃ r ∈ rows, r.subject = a.subject := by
  have hSorted := cut_subset _ _ _ hRanked
  rw [List.mem_mergeSort, List.mem_filterMap] at hSorted
  rcases hSorted with ⟨s, hSubject, hRank⟩
  have hSame : a.subject = s := by
    rcases Option.map_eq_some_iff.mp hRank with ⟨key, _, rfl⟩
    rfl
  rcases Test.exists_row hSubject with ⟨r, hRow, hOwn⟩
  exact ⟨r, (Row.mem_join_iff.mp hRow).1, hOwn.trans hSame.symm⟩

end Ranking

------------------------------------------------------------
-- Statements
------------------------------------------------------------

namespace Statement

/-
  A statement finds something exactly if it yields a row.  This
  holds for any arguments and any rows.
-/
theorem any_eq_true_iff (q : Statement) :
    q.any rows = true ↔ ∃ r, r ∈ q.list rows := by
  rcases q with ⟨template, args⟩
  cases template with
  | everything =>
      simp only [any, list, Row.mem_sort_iff, Bool.not_eq_true',
        List.isEmpty_eq_false_iff_exists_mem]
  | about =>
      simp only [any, list, Row.mem_sort_iff, List.any_eq_true,
        List.mem_filter]
  | aboutAmong c =>
      simp only [any, list, Row.mem_sort_iff, List.any_eq_true,
        List.mem_filter, Row.mem_join_iff]
      constructor
      · rintro ⟨s, hFound, hWanted⟩
        rcases Compound.exists_row hFound with ⟨r, hRow, rfl⟩
        exact ⟨r, ⟨hRow, hFound⟩, hWanted⟩
      · rintro ⟨r, ⟨_, hFound⟩, hWanted⟩
        exact ⟨r.subject, hFound, hWanted⟩
  | among c =>
      simp only [any, list, Row.mem_sort_iff, Row.mem_join_iff,
        Bool.not_eq_true', List.isEmpty_eq_false_iff_exists_mem]
      constructor
      · rintro ⟨s, hFound⟩
        rcases Compound.exists_row hFound with ⟨r, hRow, rfl⟩
        exact ⟨r, hRow, hFound⟩
      · rintro ⟨r, _, hFound⟩
        exact ⟨r.subject, hFound⟩
  | ranked c k =>
      simp only [any, list, Bool.not_eq_true',
        List.isEmpty_eq_false_iff_exists_mem, List.mem_map,
        List.mem_mergeSort, Ranked.join, List.mem_flatMap,
        List.mem_filter, decide_eq_true_eq]
      constructor
      · rintro ⟨a, hRanked⟩
        rcases Ranking.exists_row hRanked with
          ⟨r, hRow, hSubject⟩
        exact ⟨r, (a, r), ⟨a, hRanked, r, ⟨hRow, hSubject⟩, rfl⟩,
          rfl⟩
      · rintro ⟨_, _, ⟨a, hRanked, _⟩, _⟩
        exact ⟨a, hRanked⟩

/- A statement yields rows of the collection only. -/
theorem mem_of_mem_list
    {q : Statement}
    {r : Row}
    (hListed : r ∈ q.list rows) :
    r ∈ rows := by
  rcases q with ⟨template, args⟩
  cases template with
  | everything => exact Row.mem_sort_iff.mp hListed
  | about =>
      exact List.mem_of_mem_filter (Row.mem_sort_iff.mp hListed)
  | aboutAmong c =>
      have hJoined :=
        List.mem_of_mem_filter (Row.mem_sort_iff.mp hListed)
      exact (Row.mem_join_iff.mp hJoined).1
  | among c =>
      exact (Row.mem_join_iff.mp (Row.mem_sort_iff.mp hListed)).1
  | ranked c k =>
      simp only [list, List.mem_map, List.mem_mergeSort,
        Ranked.join, List.mem_flatMap] at hListed
      rcases hListed with ⟨_, ⟨a, _, hJoined⟩, rfl⟩
      rcases hJoined with ⟨r, hOwn, rfl⟩
      exact List.mem_of_mem_filter hOwn

end Statement

------------------------------------------------------------
-- Stores
------------------------------------------------------------

/- A statement is run on the rows of the collection. -/
theorem Database.rows_of_prepare
    {db : Database}
    {collection : String}
    {t : Template}
    (hPrepare : db.prepare collection t = .ok rows) :
    db.rows collection = .ok rows := by
  simp only [Database.prepare] at hPrepare
  split_ifs at hPrepare
  exact hPrepare

namespace Store

/- An answer is found from the rows that the statement is run on. -/
theorem on_any
    (s : Store)
    (q : Query)
    (c : Connection) :
    (s.any q).on c =
      (match c.content.prepare s.collection
          q.statement.template with
        | .ok rows => .ok (q.statement.any rows)
        | .error fault => .error (.execution fault), c) := by
  rw [Store.any, Action.on_bind, Store.prepare,
    Action.on_bind_ok (Action.on_content c), Action.on_execute]
  cases c.content.prepare s.collection q.statement.template <;>
    rfl

/-
  On any reachable connection, a query finds something exactly
  if its list is not empty, and it fails as the list does.
-/
theorem any_eq_list_nonempty
    (s : Store)
    (c : Connection)
    (hReach : c.Reachable)
    (q : Query) :
    (s.any q).on c =
      (((s.list q).on c).1.map fun ts => !ts.isEmpty, c) := by
  rw [on_any, on_list]
  cases hPrepare : c.content.prepare s.collection
      q.statement.template with
  | error fault => rfl
  | ok rows =>
      have hSound := hReach.rows_sound
        (Database.rows_of_prepare hPrepare)
      rcases Row.exists_eq_map_row fun r hListed =>
          hSound.legible r (Statement.mem_of_mem_list hListed) with
        ⟨ts, hList⟩
      have hAny : q.statement.any rows = !ts.isEmpty := by
        rw [Bool.eq_iff_iff, Statement.any_eq_true_iff, hList,
          Bool.not_eq_true', List.isEmpty_eq_false_iff_exists_mem]
        simp
      simp only [hList, Row.readAll_map_row, hAny]
      rfl

/- Two subjects are ranked, and a limit leaves none of them. -/
theorem any_eq_list_nonempty_people :
    let people := (runAll ⟨"people"⟩
      [.set "ann" "age" (.integer 24),
        .set "bob" "age" (.integer 23)]
      (.fresh "people")).2
    let q : Query :=
      .range ⟨"age", "20", .ascending, some 0, [], []⟩
    people.Reachable ∧
      (any ⟨"people"⟩ q).on people =
        (((list ⟨"people"⟩ q).on people).1.map
          fun ts => !ts.isEmpty, people) := by
  intro people q
  have hReach : people.Reachable :=
    (Connection.reachable_fresh (by decide)
      (foldName_eq_self rfl) (by decide)).runAll _ _
  exact ⟨hReach,
    any_eq_list_nonempty ⟨"people"⟩ people hReach q⟩

end Store

end Factbase
