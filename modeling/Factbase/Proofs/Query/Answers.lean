import Factbase.Proofs.Query.Existence
import Factbase.Proofs.Query.Scans

/-
  What a query lists, whatever its kind.

  A query either chooses from the list of all triples or goes
  over a ranking of subjects up to its limit.  What it lists is
  fixed by the subjects that it selects, its scan and its limit,
  so two queries that agree in these list the same.

  Key definitions include:
    * `Query.limit?`
    * `Query.Lists`
    * `Store.Answers`

  Main declarations:
    * `Query.Lists.unique`
    * `Query.Lists.filter`
    * `Query.Lists.mem_subjects_iff`
    * `Store.exists_lists`
    * `Store.on_any_of_list`
-/

namespace Factbase

variable {ts : List Triple}

------------------------------------------------------------
-- Listed Triples
------------------------------------------------------------

namespace Query

/- The most subjects that a query lists, if there is a limit. -/
def limit? : Query → Option Nat
  | .range q => q.limit
  | _ => none

/- What a query lists, by the list of all triples. -/
inductive Lists
    (ts : List Triple)
    (q : Query) : List Triple → Prop where
  | chosen (hFilter : q.scan? = none) :
      Lists ts q (ts.filter fun t => q.Selects ts t.subject)
  | ranked
      {k : Scan}
      {ranking : List (String × String)}
      (hScan : q.scan? = some k)
      (hRanking : k.IsRanking ts q ranking) :
      Lists ts q (listing ts (cutTo q.limit? ranking))

theorem statement_limit
    {q : Query}
    {k : Scan}
    (hScan : q.scan? = some k) :
    q.statement = k.statement q q.limit? := by
  rcases scan_cases hScan with ⟨r, rfl, rfl⟩ | ⟨r, rfl, rfl⟩ <;>
    rfl

end Query

------------------------------------------------------------
-- One Ranking
------------------------------------------------------------

namespace Scan

variable {k : Scan}
variable {q q' : Query}
variable {ranking ranking' : List (String × String)}

theorem eq_of_not_before
    {d : Direction}
    {v w : String}
    (hFirst : ¬ d.Before v w)
    (hSecond : ¬ d.Before w v) : v = w := by
  cases d with
  | ascending => exact eq_of_not_utf8_lt hFirst hSecond
  | descending => exact eq_of_not_utf8_lt hSecond hFirst

/- A subject has at most one key. -/
theorem IsKey.unique
    {subject v w : String}
    (hFirst : k.IsKey ts subject v)
    (hSecond : k.IsKey ts subject w) : v = w :=
  eq_of_not_before
    (hSecond.2 v hFirst.1.1 hFirst.1.2)
    (hFirst.2 w hSecond.1.1 hSecond.1.2)

theorem Precedes.asymm
    {a b : String × String}
    (hBefore : k.Precedes a b) : ¬ k.Precedes b a := by
  have hNever : ∀ v w : String, utf8 v < utf8 w →
      ¬ utf8 w < utf8 v :=
    fun _ _ => List.lt_asymm
  have hDirection : ∀ v w : String, k.direction.Before v w →
      ¬ k.direction.Before w v := by
    intro v w
    cases k.direction <;> exact hNever _ _
  rintro (hKey | ⟨hSame, hSubject⟩)
  · rcases hBefore with hKey' | ⟨hSame, _⟩
    · exact hDirection _ _ hKey' hKey
    · rw [hSame] at hKey
      exact hDirection _ _ hKey hKey
  · rcases hBefore with hKey | ⟨_, hSubject'⟩
    · rw [hSame] at hKey
      exact hDirection _ _ hKey hKey
    · exact hNever _ _ hSubject' hSubject

/- A place in one ranking is a place in any other one. -/
theorem IsRanking.subset
    (hRanking : k.IsRanking ts q ranking)
    (hRanking' : k.IsRanking ts q' ranking')
    (hSame : ∀ s, q.Selects ts s ↔ q'.Selects ts s) :
    ranking ⊆ ranking' := by
  rintro ⟨subject, key⟩ hPlace
  have hSelected := (hRanking.selected subject).mp
    (List.mem_map_of_mem hPlace)
  rcases List.mem_map.mp ((hRanking'.selected subject).mpr
      ((hSame subject).mp hSelected)) with
    ⟨⟨_, key'⟩, hPlace', hSubject⟩
  cases hSubject
  have hKey : key = key' :=
    (hRanking.keyed _ hPlace).unique (hRanking'.keyed _ hPlace')
  rw [hKey]
  exact hPlace'

/- The subjects that are selected fix their ranking. -/
theorem IsRanking.unique
    (hRanking : k.IsRanking ts q ranking)
    (hRanking' : k.IsRanking ts q' ranking')
    (hSame : ∀ s, q.Selects ts s ↔ q'.Selects ts s) :
    ranking = ranking' := by
  have hPerm : ranking.Perm ranking' := by
    rw [List.perm_ext_iff_of_nodup hRanking.once.of_map
      hRanking'.once.of_map]
    intro a
    exact ⟨fun hPlace => hRanking.subset hRanking' hSame hPlace,
      fun hPlace => hRanking'.subset hRanking
        (fun s => (hSame s).symm) hPlace⟩
  apply List.Perm.eq_of_pairwise ?_ hRanking.ordered
    hRanking'.ordered hPerm
  intro a b _ _ hBefore hAfter
  exact absurd hAfter hBefore.asymm

/- What is left of a ranking is one of the subjects left. -/
theorem IsRanking.filter
    (hRanking : k.IsRanking ts q ranking)
    (keeps : String → Bool)
    (hSelects : ∀ s, q'.Selects ts s ↔
      q.Selects ts s ∧ keeps s = true) :
    k.IsRanking ts q' (ranking.filter fun a => keeps a.1) where
  ordered := hRanking.ordered.filter _
  once := hRanking.once.sublist (List.filter_sublist.map _)
  selected s := by
    rw [hSelects, ← hRanking.selected]
    simp only [List.mem_map, List.mem_filter]
    constructor
    · rintro ⟨a, ⟨hPlace, hKeeps⟩, rfl⟩
      exact ⟨⟨a, hPlace, rfl⟩, hKeeps⟩
    · rintro ⟨⟨a, hPlace, rfl⟩, hKeeps⟩
      exact ⟨a, ⟨hPlace, hKeeps⟩, rfl⟩
  keyed a hPlace := hRanking.keyed a (List.mem_of_mem_filter hPlace)

end Scan

/- The triples of the first subject come first. -/
theorem listing_cons
    (ts : List Triple)
    (a : String × String)
    (ranking : List (String × String)) :
    listing ts (a :: ranking) =
      (ts.filter fun t => t.subject = a.1) ++
        listing ts ranking := rfl

theorem listing_filter
    (ts : List Triple)
    (ranking : List (String × String))
    (keeps : String → Bool) :
    listing ts (ranking.filter fun a => keeps a.1) =
      (listing ts ranking).filter fun t => keeps t.subject := by
  induction ranking with
  | nil => rfl
  | cons a ranking ih =>
      have hOwn : (ts.filter fun t => t.subject = a.1).filter
          (fun t => keeps t.subject) =
            if keeps a.1 then ts.filter fun t => t.subject = a.1
            else [] := by
        rw [List.filter_filter]
        split_ifs with hKeeps
        · apply List.filter_congr
          intro t _
          by_cases hSubject : t.subject = a.1 <;>
            simp [hSubject, hKeeps]
        · rw [List.filter_eq_nil_iff]
          intro t _
          by_cases hSubject : t.subject = a.1 <;>
            simp [hSubject, hKeeps]
      rw [listing_cons, List.filter_append, hOwn, ← ih,
        List.filter_cons]
      split_ifs <;> rfl

------------------------------------------------------------
-- Queries That List the Same
------------------------------------------------------------

namespace Query.Lists

variable {q q' : Query}
variable {us us' : List Triple}

/-
  What is listed is fixed by the scan, the limit and the
  subjects that are selected.
-/
theorem unique
    (hLists : q.Lists ts us)
    (hLists' : q'.Lists ts us')
    (hScans : q.scan? = q'.scan?)
    (hLimits : q.limit? = q'.limit?)
    (hSame : ∀ s, q.Selects ts s ↔ q'.Selects ts s) :
    us = us' := by
  cases hLists with
  | chosen hFilter =>
      cases hLists' with
      | chosen _ =>
          apply List.filter_congr
          intro t _
          rw [decide_eq_decide]
          exact hSame t.subject
      | ranked hScan' _ =>
          rw [hScans, hScan'] at hFilter
          cases hFilter
  | ranked hScan hRanking =>
      cases hLists' with
      | chosen hFilter' =>
          rw [hScans, hFilter'] at hScan
          cases hScan
      | ranked hScan' hRanking' =>
          rw [hScans, hScan', Option.some.injEq] at hScan
          subst hScan
          rw [hLimits, hRanking.unique hRanking' hSame]

/-
  A query without a limit that selects some subjects of another
  one lists what the other one lists of these.
-/
theorem filter
    (hLists : q.Lists ts us)
    (hScans : q'.scan? = q.scan?)
    (hLimit : q.limit? = none)
    (hLimit' : q'.limit? = none)
    (keeps : String → Bool)
    (hSelects : ∀ s, q'.Selects ts s ↔
      q.Selects ts s ∧ keeps s = true) :
    q'.Lists ts (us.filter fun t => keeps t.subject) := by
  cases hLists with
  | chosen hFilter =>
      have hChosen : (ts.filter fun t =>
          q.Selects ts t.subject).filter
            (fun t => keeps t.subject) =
          ts.filter fun t => q'.Selects ts t.subject := by
        rw [List.filter_filter]
        apply List.filter_congr
        intro t _
        rw [Bool.eq_iff_iff, Bool.and_eq_true, decide_eq_true_eq,
          decide_eq_true_eq, hSelects, and_comm]
      rw [hChosen]
      exact .chosen (hScans.trans hFilter)
  | ranked hScan hRanking =>
      have hRanking' := hRanking.filter keeps hSelects
      have hListed := Lists.ranked (hScans.trans hScan) hRanking'
      rw [hLimit'] at hListed
      rw [hLimit]
      rwa [cutTo, listing_filter] at hListed

/-
  A query without a limit lists the subjects that it selects,
  as far as there are triples of them.
-/
theorem mem_subjects_iff
    (hLists : q.Lists ts us)
    (hLimit : q.limit? = none)
    {subject : String} :
    subject ∈ us.map Triple.subject ↔
      subject ∈ ts.map Triple.subject ∧ q.Selects ts subject := by
  cases hLists with
  | chosen _ =>
      simp only [List.mem_map, List.mem_filter, decide_eq_true_eq]
      constructor
      · rintro ⟨t, ⟨hMember, hSelects⟩, rfl⟩
        exact ⟨⟨t, hMember, rfl⟩, hSelects⟩
      · rintro ⟨⟨t, hMember, rfl⟩, hSelects⟩
        exact ⟨t, ⟨hMember, hSelects⟩, rfl⟩
  | ranked _ hRanking =>
      rw [hLimit, cutTo, ← hRanking.selected]
      simp only [listing, List.mem_map, List.mem_flatMap,
        List.mem_filter, decide_eq_true_eq]
      constructor
      · rintro ⟨t, ⟨a, hPlace, hMember, hSubject⟩, rfl⟩
        exact ⟨⟨t, hMember, rfl⟩, a, hPlace, hSubject.symm⟩
      · rintro ⟨⟨t, hMember, rfl⟩, a, hPlace, hSubject⟩
        exact ⟨t, ⟨a, hPlace, hMember, hSubject.symm⟩, rfl⟩

end Query.Lists

------------------------------------------------------------
-- Answers
------------------------------------------------------------

/- Rows that can be read are those of the triples read. -/
theorem Row.eq_map_row_of_readAll
    {rows : List Row}
    (hRead : (Row.readAll rows).mapError StoreError.execution =
      .ok ts) :
    rows = ts.map Triple.row := by
  have hRows : Row.readAll rows = .ok ts := by
    cases hAnswer : Row.readAll rows with
    | error fault => simp [hAnswer, Except.mapError] at hRead
    | ok us => simpa [hAnswer, Except.mapError] using hRead
  clear hRead
  induction rows generalizing ts with
  | nil =>
      cases hRows
      rfl
  | cons r rows ih =>
      rcases r with ⟨subject, predicate, v | bytes⟩
      · have hRest : Row.readAll (⟨subject, predicate, .text v⟩ ::
            rows) = (Row.readAll rows).map
              (⟨subject, predicate, v⟩ :: ·) := by
          simp only [Row.readAll, List.mapM_cons, Row.read]
          cases rows.mapM Row.read <;> rfl
        rw [hRest] at hRows
        cases hUs : Row.readAll rows with
        | error fault => simp [hUs, Except.map] at hRows
        | ok us =>
            rw [hUs] at hRows
            cases hRows
            rw [ih hUs]
            rfl
      · simp only [Row.readAll, List.mapM_cons, Row.read] at hRows
        cases hRows

/-
  The database answers a query: the collection is there, the
  query combines no more sets than it may, and the collection
  has no name that the statement gives to a set of its own.
-/
structure Store.Answers
    (s : Store)
    (c : Connection)
    (q : Query) : Prop where
  table : c.content.hasTable s.collection = true
  terms : q.sets ≤ Database.mostTerms
  name : foldName s.collection ∉ q.ownNames

namespace Store

variable {s : Store}
variable {c : Connection}
variable {q : Query}

/-
  Where the collection is there, the list of all triples ascends
  and decides what every query lists that is answered.
-/
theorem exists_lists
    (hReach : c.Reachable)
    (hTable : c.content.hasTable s.collection = true) :
    ∃ ts, (s.list .all).on c = (.ok ts, c) ∧
      ts.Pairwise (fun t u => t.key < u.key) ∧
      ∀ q, s.Answers c q → ∃ us, q.Lists ts us ∧
        (s.list q).on c = (.ok us, c) := by
  rcases Database.hasTable_iff.mp hTable with ⟨rows, hRows⟩
  rcases (hReach.rows_sound hRows).exists_triples with
    ⟨ts, hSort, hAscending⟩
  refine ⟨ts, on_list_all hRows hSort, hAscending, ?_⟩
  intro q hAnswers
  cases hScan : q.scan? with
  | none =>
      exact ⟨_, .chosen hScan, on_list_of_rows hRows
        hAnswers.terms hAnswers.name
        (Query.list_statement hSort hScan)⟩
  | some k =>
      rcases Scan.exists_list_statement hSort hScan with
        ⟨ranking, hRanking, hList⟩
      refine ⟨_, .ranked hScan hRanking, on_list_of_rows hRows
        hAnswers.terms hAnswers.name ?_⟩
      rw [Query.statement_limit hScan]
      exact hList q.limit?

/- A statement that is run is that of a query answered. -/
theorem answers_of_prepare
    {rows : List Row}
    (hPrepare :
      c.content.prepare s.collection q.statement.template =
        .ok rows) :
    s.Answers c q := by
  have hRows := Database.rows_of_prepare hPrepare
  rw [prepare_eq] at hPrepare
  split_ifs at hPrepare with hTerms hName
  exact ⟨Database.hasTable_iff.mpr ⟨rows, hRows⟩,
    Nat.not_lt.mp hTerms, hName⟩

/- A query that is not answered fails in the database. -/
theorem on_list_of_not_answers
    (hAnswers : ¬ s.Answers c q) :
    ∃ fault, (s.list q).on c = (.error (.execution fault), c) := by
  rw [on_list]
  cases hPrepare : c.content.prepare s.collection
      q.statement.template with
  | error fault => exact ⟨fault, rfl⟩
  | ok rows => exact absurd (answers_of_prepare hPrepare) hAnswers

/- A query finds something if its list is not empty. -/
theorem on_any_of_list
    {us : List Triple}
    (hList : (s.list q).on c = (.ok us, c)) :
    (s.any q).on c = (.ok (!us.isEmpty), c) := by
  rw [on_list] at hList
  rw [on_any]
  cases hPrepare : c.content.prepare s.collection
      q.statement.template with
  | error fault => simp [hPrepare] at hList
  | ok rows =>
      simp only [hPrepare, Prod.mk.injEq, and_true] at hList ⊢
      have hRows := Row.eq_map_row_of_readAll hList
      have hAny : q.statement.any rows = !us.isEmpty := by
        rw [Bool.eq_iff_iff, Statement.any_eq_true_iff, hRows,
          Bool.not_eq_true', List.isEmpty_eq_false_iff_exists_mem]
        simp
      rw [hAny]

end Store

end Factbase
