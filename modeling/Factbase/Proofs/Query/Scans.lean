import Factbase.Proofs.Query.Filters
import Factbase.Proofs.Query.Ranking

/-
  Ordered scans.

  A scan ranks the subjects it selects, each by the nearest of
  its values in range, and lists all triples of one after those
  of another.  A limit cuts the ranking, not the triples.

  Main declarations:
    * `Scan.exists_rank?`
    * `Scan.exists_ranking`
    * `Scan.exists_list_statement`
    * `Store.list_scan`
-/

namespace Factbase

/- The first ones of a list, if there is a limit. -/
def cutTo
    {α : Type}
    (limit : Option Nat)
    (xs : List α) : List α :=
  match limit with
  | none => xs
  | some n => xs.take n

theorem cutTo_sublist
    {α : Type}
    (limit : Option Nat)
    (xs : List α) : (cutTo limit xs).Sublist xs := by
  cases limit with
  | none => exact List.Sublist.refl xs
  | some n => exact List.take_sublist n xs

theorem cutTo_map
    {α β : Type}
    (f : α → β)
    (limit : Option Nat)
    (xs : List α) :
    cutTo limit (xs.map f) = (cutTo limit xs).map f := by
  cases limit with
  | none => rfl
  | some n => exact List.map_take.symm

------------------------------------------------------------
-- Tests of Scans
------------------------------------------------------------

namespace Scan

def test (k : Scan) : BoundTest :=
  rangeTest k.predicate k.threshold k.direction

def ranked
    (k : Scan)
    (limited : Bool) : Ranking :=
  ⟨k.test.1, k.direction, limited⟩

variable {k : Scan}
variable {rows : List Row}
variable {ts : List Triple}
variable {subject : String}

theorem fits_test (k : Scan) : k.test.Fits :=
  fits_rangeTest _ _ _

/-
  The test of a scan holds of the values of its predicate that
  are in range.
-/
theorem holds_test_iff {t : Triple} :
    k.test.1.holds k.test.2 t.row = true ↔
      t.predicate = k.predicate ∧ k.InRange t.encoded := by
  rcases k with ⟨predicate, _ | threshold, direction⟩
  · simp [test, rangeTest, hasTest, Test.holds, Triple.row,
      InRange]
  · simp [test, rangeTest, Test.holds, Triple.row, InRange,
      Direction.compare_text_iff]

/- A subject passes if it reaches into the range. -/
theorem passes_test_iff
    (hSort : Row.sort rows = ts.map Triple.row) :
    k.test.Passes rows subject ↔ k.Reaches ts subject := by
  rw [passes_iff hSort]
  simp only [holds_test_iff]
  rfl

/- The candidates of a query that makes a scan. -/
def candidates
    (k : Scan)
    (q : Query) : Compound × List Arg :=
  Factbase.candidates k.test (q.wheres.map Clause.test)
    (q.without.map hasTest)

theorem length_candidates
    (k : Scan)
    (q : Query) :
    (k.candidates q).2.length = (k.candidates q).1.arity :=
  Factbase.length_candidates k.fits_test
    (by simp [Clause.fits_test]) (by simp [fits_hasTest])

/- The candidates of a scan are the subjects it selects. -/
theorem mem_candidates_iff
    (hSort : Row.sort rows = ts.map Triple.row)
    {q : Query}
    (hScan : q.scan? = some k) :
    subject ∈
        (k.candidates q).1.subjects (k.candidates q).2 rows ↔
      q.Selects ts subject := by
  rw [candidates, Factbase.mem_candidates_iff k.fits_test
      (by simp [Clause.fits_test]) (by simp [fits_hasTest]),
    passes_test_iff hSort, List.forall_mem_map,
    List.forall_mem_map, Query.selects_iff_of_scan ts _ hScan]
  simp only [Clause.passes_test_iff hSort,
    passes_hasTest_iff hSort]

------------------------------------------------------------
-- Keys
------------------------------------------------------------

/- The cells that a subject is ranked by are its values in range. -/
theorem mem_cells_iff
    (hSort : Row.sort rows = ts.map Triple.row)
    {cell : Cell} :
    cell ∈ (rows.filter fun r =>
        r.subject = subject &&
          k.test.1.holds k.test.2 r).map Row.value ↔
      ∃ v, .text v = cell ∧
        ⟨subject, k.predicate, v⟩ ∈ ts ∧ k.InRange v := by
  simp only [List.mem_map, List.mem_filter, Bool.and_eq_true,
    decide_eq_true_eq, mem_rows_iff hSort]
  constructor
  · rintro ⟨_, ⟨⟨t, hTriple, rfl⟩, rfl, hTest⟩, rfl⟩
    rcases holds_test_iff.mp hTest with ⟨hPredicate, hRange⟩
    refine ⟨t.encoded, rfl, ?_, hRange⟩
    rw [← hPredicate]
    exact hTriple
  · rintro ⟨v, rfl, hTriple, hRange⟩
    refine ⟨_, ⟨⟨_, hTriple, rfl⟩, rfl, ?_⟩, rfl⟩
    exact holds_test_iff.mpr ⟨rfl, hRange⟩

/- A subject with a value in range is ranked by its key. -/
theorem exists_rank?
    (hSort : Row.sort rows = ts.map Triple.row)
    (hReaches : k.Reaches ts subject) :
    ∃ key, k.IsKey ts subject key ∧
      (k.ranked false).rank? k.test.2 rows subject =
        some (place (subject, key)) := by
  rcases hReaches with ⟨⟨_, _, v⟩, hTriple, rfl, rfl, hRange⟩
  have hCell := (mem_cells_iff hSort).mpr
    ⟨v, rfl, hTriple, hRange⟩
  rcases Direction.exists_nearest? (d := k.direction)
      (List.ne_nil_of_mem hCell) with
    ⟨nearest, hNearest, hMember, hLeast⟩
  rcases (mem_cells_iff hSort).mp hMember with
    ⟨key, rfl, hKey, hInRange⟩
  refine ⟨key, ⟨⟨hKey, hInRange⟩, ?_⟩, ?_⟩
  · intro v hValue hInRange' hBefore
    replace hLeast := hLeast (.text v)
      ((mem_cells_iff hSort).mpr ⟨v, rfl, hValue, hInRange'⟩)
    have hSwap : k.direction.compare (.text key) (.text v) =
        (k.direction.compare (.text v) (.text key)).swap :=
      Std.OrientedCmp.eq_swap
    rw [hSwap, Direction.compare_text_iff.mpr hBefore] at hLeast
    cases hLeast
  · rw [Ranking.rank?, ranked, hNearest]
    rfl

/- Subjects with values in range are ranked by their keys. -/
theorem exists_places
    (hSort : Row.sort rows = ts.map Triple.row)
    {subjects : List String}
    (hReaches : ∀ s ∈ subjects, k.Reaches ts s) :
    ∃ places : List (String × String),
      places.map Prod.fst = subjects ∧
        (∀ a ∈ places, k.IsKey ts a.1 a.2) ∧
        subjects.filterMap
            ((k.ranked false).rank? k.test.2 rows) =
          places.map place := by
  induction subjects with
  | nil => exact ⟨[], rfl, by simp, rfl⟩
  | cons s subjects ih =>
      rcases exists_rank? hSort (hReaches s (by simp)) with
        ⟨key, hKey, hRank⟩
      rcases ih fun s' hMember =>
          hReaches s' (List.mem_cons_of_mem _ hMember) with
        ⟨places, hSubjects, hKeys, hRanks⟩
      refine ⟨(s, key) :: places, ?_, ?_, ?_⟩
      · rw [List.map_cons, hSubjects]
      · exact List.forall_mem_cons.mpr ⟨hKey, hKeys⟩
      · rw [List.filterMap_cons, hRank, hRanks, List.map_cons]

/- A subject that is found has the same rank on joined rows. -/
theorem rank?_join
    {ranking : Ranking}
    {args : List Arg}
    {found : List String}
    (hNodup : found.Nodup)
    (hFound : subject ∈ found) :
    ranking.rank? args (Row.join found rows) subject =
      ranking.rank? args rows subject := by
  have hOwn :
      ((rows.filter fun r => r.subject ∈ found).filter fun r =>
          r.subject = subject && ranking.test.holds args r) =
        rows.filter fun r =>
          r.subject = subject && ranking.test.holds args r := by
    rw [List.filter_filter]
    apply List.filter_congr
    intro r _
    by_cases hSubject : r.subject = subject
    · simp [hSubject, hFound]
    · simp [hSubject]
  rw [Ranking.rank?, Row.join_eq_filter hNodup, hOwn]
  rfl

/- The joined rows that pass are of subjects that were found. -/
theorem mem_subjects_join_iff
    {t : BoundTest}
    {found : List String}
    (hNodup : found.Nodup) :
    subject ∈ t.1.subjects t.2 (Row.join found rows) ↔
      subject ∈ found ∧ t.Passes rows subject := by
  rw [Test.mem_subjects_iff, Row.join_eq_filter hNodup]
  simp only [BoundTest.Passes, List.mem_filter,
    decide_eq_true_eq]
  constructor
  · rintro ⟨r, ⟨hRow, hFound⟩, rfl, hPass⟩
    exact ⟨hFound, r, hRow, rfl, hPass⟩
  · rintro ⟨hFound, r, hRow, rfl, hPass⟩
    exact ⟨r, ⟨hRow, hFound⟩, rfl, hPass⟩

------------------------------------------------------------
-- Rankings of Scans
------------------------------------------------------------

/- The candidates of a scan in its order. -/
def order
    (k : Scan)
    (rows : List Row)
    (found : List String) : List Ranked :=
  let joined := Row.join found rows
  ((k.test.1.subjects k.test.2 joined).filterMap
      ((k.ranked false).rank? k.test.2 joined)).mergeSort
    fun a b => ((k.ranked false).compare a b).isLE

/- A limit cuts the ranking. -/
theorem order_ranked
    (limit : Option Nat)
    (found : List String) :
    (k.ranked limit.isSome).order
        (k.test.2 ++ (limit.map Arg.integer).toList) rows found =
      cutTo limit (k.order rows found) := by
  have hFits : k.test.2.length =
      (k.ranked limit.isSome).test.arity := k.fits_test
  rw [Ranking.order, List.take_left' hFits,
    List.drop_left' hFits]
  cases limit <;> rfl

/- Subjects with their keys, in the order of a scan. -/
def sortPlaces
    (k : Scan)
    (places : List (String × String)) : List (String × String) :=
  places.mergeSort fun a b =>
    ((k.ranked false).compare (place a) (place b)).isLE

theorem sortPlaces_perm
    (k : Scan)
    (places : List (String × String)) :
    (k.sortPlaces places).Perm places :=
  List.mergeSort_perm places _

/- Places are sorted as a ranking sorts them. -/
theorem map_sortPlaces
    (k : Scan)
    (places : List (String × String)) :
    (k.sortPlaces places).map place =
      (places.map place).mergeSort fun a b =>
        ((k.ranked false).compare a b).isLE :=
  List.map_mergeSort fun _ _ _ _ => rfl

/- Distinct subjects follow each other strictly. -/
theorem sortPlaces_pairwise
    {places : List (String × String)}
    (hOnce : (places.map Prod.fst).Nodup) :
    (k.sortPlaces places).Pairwise k.Precedes := by
  have hTrans := transCmp_comap (k.ranked false).compare place
  have hSorted := pairwise_mergeSort_isLE
    (fun a b => (k.ranked false).compare (place a) (place b))
    places
  have hDistinct :
      (k.sortPlaces places).Pairwise fun a b => a.1 ≠ b.1 := by
    rw [← List.pairwise_map]
    exact ((k.sortPlaces_perm places).map _).nodup_iff.mpr hOnce
  apply hSorted.imp₂ ?_ hDistinct
  intro a b hBefore hNe
  rcases Ordering.isLE_iff_eq_lt_or_eq_eq.mp hBefore with
    hLess | hEqual
  · exact (Ranking.compare_place_iff rfl).mp hLess
  · exact absurd (Ranking.subject_eq_of_compare hEqual) hNe

/-
  The order of the candidates is a ranking of the subjects that
  the query selects.
-/
theorem exists_ranking
    (hSort : Row.sort rows = ts.map Triple.row)
    {q : Query}
    (hScan : q.scan? = some k)
    {found : List String}
    (hNodup : found.Nodup)
    (hFound : ∀ s, s ∈ found ↔ q.Selects ts s) :
    ∃ ranking, k.IsRanking ts q ranking ∧
      k.order rows found = ranking.map place := by
  have hReaches : ∀ s, q.Selects ts s → k.Reaches ts s :=
    fun s hSelects =>
      ((Query.selects_iff_of_scan ts s hScan).mp hSelects).1
  have hMember : ∀ s,
      s ∈ k.test.1.subjects k.test.2 (Row.join found rows) ↔
        q.Selects ts s := by
    intro s
    rw [mem_subjects_join_iff hNodup, hFound,
      passes_test_iff hSort]
    exact and_iff_left_of_imp (hReaches s)
  rcases exists_places hSort fun s hSubject =>
      hReaches s ((hMember s).mp hSubject) with
    ⟨places, hSubjects, hKeys, hRanks⟩
  -- joined rows and all rows rank a subject that is found alike
  have hRanked :
      (k.test.1.subjects k.test.2
          (Row.join found rows)).filterMap
            ((k.ranked false).rank? k.test.2
              (Row.join found rows)) =
        places.map place := by
    rw [← hRanks]
    apply List.filterMap_congr
    intro s hSubject
    exact rank?_join hNodup ((hFound s).mpr
      ((hMember s).mp hSubject))
  have hPerm := (k.sortPlaces_perm places).map Prod.fst
  have hOnce : (places.map Prod.fst).Nodup := by
    rw [hSubjects]
    exact Test.nodup_subjects
  refine ⟨k.sortPlaces places, ⟨?_, ?_, ?_, ?_⟩, ?_⟩
  · exact sortPlaces_pairwise hOnce
  · exact hPerm.nodup_iff.mpr hOnce
  · intro s
    rw [hPerm.mem_iff, hSubjects, hMember]
  · intro a hPlace
    exact hKeys a ((k.sortPlaces_perm places).mem_iff.mp hPlace)
  · rw [order, hRanked, map_sortPlaces]

------------------------------------------------------------
-- Statements of Scans
------------------------------------------------------------

/- The statement of the scan that a query makes. -/
def statement
    (k : Scan)
    (q : Query)
    (limit : Option Nat) : Statement :=
  scan k.predicate k.threshold k.direction limit q.wheres
    q.without

/- Without its limit, a scan is the same statement unlimited. -/
theorem statement_unlimited
    {q : Query}
    (hScan : q.scan? = some k) :
    q.unlimited.statement = k.statement q none := by
  rcases Query.scan_cases hScan with
    ⟨r, rfl, rfl⟩ | ⟨r, rfl, rfl⟩ <;> rfl

/- The rows of a scan are joined with its order, up to the limit. -/
theorem list_statement
    (q : Query)
    (limit : Option Nat)
    (rows : List Row) :
    (k.statement q limit).list rows =
      ((Ranked.join
          (cutTo limit (k.order rows
            ((k.candidates q).1.subjects (k.candidates q).2
              rows)))
          rows).mergeSort
        fun a b =>
          ((k.ranked false).compareJoined a b).isLE).map
            Prod.snd := by
  have hStatement : k.statement q limit =
      ⟨.ranked (k.candidates q).1 (k.ranked limit.isSome),
        (k.candidates q).2 ++
          (k.test.2 ++ (limit.map Arg.integer).toList)⟩ := by
    rw [← List.append_assoc]
    rfl
  rw [hStatement, Statement.list]
  simp only
  rw [List.take_left' (k.length_candidates q),
    List.drop_left' (k.length_candidates q), order_ranked]
  rfl

/- The sorted rows of ranked subjects are those of a listing. -/
theorem flatMap_place
    (hSort : Row.sort rows = ts.map Triple.row)
    (ranking : List (String × String)) :
    (ranking.map place).flatMap
        (fun a => Row.sort
          (rows.filter (·.subject = a.subject))) =
      (listing ts ranking).map Triple.row := by
  rw [List.flatMap_map, listing, List.map_flatMap]
  congr 1
  funext a
  rw [Row.sort_filter, hSort, List.filter_map]
  rfl

/-
  The rows of a scan are those of the subjects of its ranking,
  which the limit cuts.
-/
theorem exists_list_statement
    (hSort : Row.sort rows = ts.map Triple.row)
    {q : Query}
    (hScan : q.scan? = some k) :
    ∃ ranking, k.IsRanking ts q ranking ∧
      ∀ limit,
        (k.statement q limit).list rows =
          (listing ts (cutTo limit ranking)).map Triple.row := by
  rcases exists_ranking hSort hScan
      (Compound.nodup_subjects _ _)
      (fun s => mem_candidates_iff hSort hScan) with
    ⟨ranking, hRanking, hOrder⟩
  refine ⟨ranking, hRanking, ?_⟩
  intro limit
  have hCut := cutTo_sublist limit ranking
  rw [list_statement, hOrder, cutTo_map, Ranking.sort_join,
    flatMap_place hSort]
  · rw [List.pairwise_map]
    exact (hRanking.ordered.sublist hCut).imp
      (Ranking.compare_place_iff rfl).mpr
  · rw [List.map_map]
    exact hRanking.once.sublist (hCut.map _)

end Scan

------------------------------------------------------------
-- Lists of Scans
------------------------------------------------------------

/-
  On any reachable connection, a scan lists the triples of the
  subjects that it selects in the order of their keys, all of
  one subject together and in the order of the list of all.  A
  limit leaves the first subjects.  A scan that combines more
  sets than it may fails.
-/
theorem Store.list_scan
    (s : Store)
    (c : Connection)
    (hReach : c.Reachable)
    (hTable : c.content.hasTable s.collection = true)
    (q : Query)
    (k : Scan)
    (hScan : q.scan? = some k)
    (hName : foldName s.collection ∉ q.ownNames) :
    ∃ ts ranking,
      (s.list .all).on c = (.ok ts, c) ∧
      ts.Pairwise (fun t u => t.key < u.key) ∧
      k.IsRanking ts q ranking ∧
      (q.sets ≤ Database.mostTerms →
        (s.list q.unlimited).on c =
          (.ok (listing ts ranking), c) ∧
        ∀ r n, q = .range r →
          (s.list (.range (r.first n))).on c =
            (.ok (listing ts (ranking.take
              (min n RangeQuery.greatestLimit))), c)) ∧
      (Database.mostTerms < q.sets →
        (s.list q).on c =
          (.error (.execution q.excess), c)) := by
  rcases Database.hasTable_iff.mp hTable with ⟨rows, hRows⟩
  rcases (hReach.rows_sound hRows).exists_triples with
    ⟨ts, hSort, hAscending⟩
  rcases Scan.exists_list_statement hSort hScan with
    ⟨ranking, hRanking, hList⟩
  refine ⟨ts, ranking, on_list_all hRows hSort, hAscending,
    hRanking, ?_, ?_⟩
  · intro hTerms
    constructor
    · apply on_list_of_rows hRows
      · rwa [Query.sets_unlimited]
      · rwa [Query.ownNames_unlimited]
      · rw [Scan.statement_unlimited hScan]
        exact hList none
    · rintro r n rfl
      cases hScan
      exact on_list_of_rows (q := .range (r.first n))
        hRows hTerms hName
        (hList (some (min n RangeQuery.greatestLimit)))
  · intro hTerms
    rw [on_list_query hRows, if_pos hTerms]

/- The first of two subjects by age, which was written last. -/
theorem Store.list_scan_people :
    let r : RangeQuery :=
      ⟨"age", "20", .ascending, none, [], ["gone"]⟩
    let people := (runAll ⟨"people"⟩
      [.set "ann" "age" (.integer 24),
        .set "bob" "age" (.integer 23)]
      (.fresh "people")).2
    ∃ ts ranking,
      (list ⟨"people"⟩ .all).on people = (.ok ts, people) ∧
      Scan.IsRanking ts ⟨"age", some "20", .ascending⟩
        (.range r) ranking ∧
      (list ⟨"people"⟩ (.range (r.first 1))).on people =
        (.ok (listing ts (ranking.take 1)), people) := by
  intro r people
  have hFold : foldName "people" = "people" :=
    foldName_eq_self rfl
  have hReach : people.Reachable :=
    (Connection.reachable_fresh (by decide) hFold
      (by decide)).runAll _ _
  rcases list_scan ⟨"people"⟩ people hReach
      (hasTable_runAll (Connection.hasTable_fresh hFold) _)
      (.range r) _ rfl (by rw [hFold]; decide) with
    ⟨ts, ranking, hAll, _, hRanking, hLists, _⟩
  exact ⟨ts, ranking, hAll, hRanking,
    (hLists (by decide)).2 r 1 rfl⟩

/-
  Too many conditions make a scan fail, although there is a
  subject that it selects.
-/
theorem Store.list_scan_many_wheres :
    let q : Query :=
      .order ⟨"age", .ascending,
        List.replicate 500 ⟨"age", "null"⟩, []⟩
    let people := ((Command.set "ann" "age" .unit).action
      ⟨"people"⟩).on (.fresh "people") |>.2
    people.Reachable ∧
      q.Selects [⟨"ann", "age", "null"⟩] "ann" ∧
      (list ⟨"people"⟩ .all).on people =
        (.ok [⟨"ann", "age", "null"⟩], people) ∧
      (list ⟨"people"⟩ q).on people =
        (.error (.execution .tooManyTerms), people) := by
  intro q people
  have hFold : foldName "people" = "people" :=
    foldName_eq_self rfl
  have hSet := on_set (s := ⟨"people"⟩)
    (Connection.rows_fresh hFold) "ann" "age" .unit
  have hRows : people.content.rows "people" =
      .ok [Triple.row ⟨"ann", "age", "null"⟩] := by
    simp only [people, Command.action, hSet]
    exact Connection.rows_alter (Connection.rows_fresh hFold) _
  refine ⟨?_, ?_, ?_, ?_⟩
  · exact (Connection.reachable_fresh (by decide) hFold
      (by decide)).step (.perform ⟨"people"⟩ _)
  · refine ⟨⟨_, List.mem_singleton_self _, rfl, rfl, ?_⟩,
      ?_, ?_, ?_⟩
    · simp [Scan.InRange]
    · intro c hClause
      rw [List.eq_of_mem_replicate hClause]
      exact List.mem_singleton_self _
    · simp [q, Query.has]
    · simp [q, Query.without]
  · exact on_list_all hRows (List.mergeSort_singleton _)
  · have hWheres : q.wheres.length = 500 :=
      List.length_replicate
    have hSets : q.sets = 501 := by
      change 1 + q.wheres.length + 0 + 0 = 501
      rw [hWheres]
    have hExcess : q.excess = .tooManyTerms := by
      apply Query.excess_of_le
      rw [hSets]
      decide
    rw [on_list_query hRows, hExcess, if_pos]
    rw [hSets]
    decide

end Factbase
