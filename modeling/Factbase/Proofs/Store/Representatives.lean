import Factbase.Proofs.Query.Answers
import Factbase.Proofs.Store.Locality

/-
  The one value that is read of a subject and a predicate.

  A subject may have several values for a predicate.  The one
  that is read without a query is the first that the query for
  the subject lists, the least in the order of bytes, so a new
  value takes its place only if it is less.

  Key definitions include:
    * `Represents`
    * `lesser`

  Main declarations:
    * `Row.least?_eq_head?_sort`
    * `find?_eq_some_iff_represents`
    * `Store.get_first_about`
-/

namespace Factbase

variable {ts us : List Triple}
variable {t u : Triple}
variable {subject predicate text : String}

------------------------------------------------------------
-- Representatives
------------------------------------------------------------

/- The triple with the least value of a subject and a predicate. -/
structure Represents
    (ts : List Triple)
    (subject predicate : String)
    (t : Triple) : Prop where
  listed : t ∈ ts
  subject_eq : t.subject = subject
  predicate_eq : t.predicate = predicate
  least : ∀ u ∈ ts, u.subject = subject →
    u.predicate = predicate →
      ¬ utf8 u.encoded < utf8 t.encoded

/- A triple states something of a subject and a predicate. -/
def Triple.isOf
    (subject predicate : String)
    (t : Triple) : Bool :=
  t.subject = subject && t.predicate = predicate

theorem Triple.isOf_iff :
    t.isOf subject predicate = true ↔
      t.subject = subject ∧ t.predicate = predicate := by
  simp [Triple.isOf]

/- Of two encodings, the one whose bytes come first. -/
def lesser (v w : String) : String :=
  if utf8 w < utf8 v then w else v

theorem Represents.unique
    (hFirst : Represents ts subject predicate t)
    (hSecond : Represents ts subject predicate u) : t = u := by
  rcases t with ⟨s, p, v⟩
  rcases u with ⟨s', p', w⟩
  rcases hFirst with ⟨hListed, rfl, rfl, hLeast⟩
  rcases hSecond with ⟨hListed', rfl, rfl, hLeast'⟩
  have hValue : v = w := eq_of_not_utf8_lt
    (hLeast' _ hListed rfl rfl) (hLeast _ hListed' rfl rfl)
  rw [hValue]

/- Where triples ascend, the first of a pair represents it. -/
theorem find?_eq_some_iff_represents
    (hAscending : ts.Pairwise fun t u => t.key < u.key) :
    ts.find? (Triple.isOf subject predicate) = some t ↔
      Represents ts subject predicate t := by
  have hFound : ∀ v,
      ts.find? (Triple.isOf subject predicate) = some v →
        Represents ts subject predicate v := by
    intro v hFind
    rcases List.find?_eq_some_iff_append.mp hFind with
      ⟨hOf, front, rest, rfl, hFront⟩
    rcases Triple.isOf_iff.mp hOf with ⟨rfl, rfl⟩
    refine ⟨by simp, rfl, rfl, ?_⟩
    intro u hMember hSubject hPredicate
    rcases List.mem_append.mp hMember with hBefore | hAfter
    · have hNot := hFront u hBefore
      simp [Triple.isOf, hSubject, hPredicate] at hNot
    · rcases List.mem_cons.mp hAfter with rfl | hRest
      · exact List.lt_irrefl _
      · have hKey := (List.pairwise_cons.mp
          (List.pairwise_append.mp hAscending).2.1).1 u hRest
        simp only [Triple.key, hSubject, hPredicate,
          List.cons_lt_cons_iff, List.lt_irrefl, false_or,
          true_and, or_false, and_false] at hKey
        exact List.lt_asymm hKey
  refine ⟨hFound t, ?_⟩
  intro hRepresents
  cases hFind : ts.find? (Triple.isOf subject predicate) with
  | none =>
      have hNot := List.find?_eq_none.mp hFind t hRepresents.listed
      exact absurd (Triple.isOf_iff.mpr
        ⟨hRepresents.subject_eq, hRepresents.predicate_eq⟩) hNot
  | some v => rw [(hFound v hFind).unique hRepresents]

theorem find?_eq_none_iff_not_hasAny :
    ts.find? (Triple.isOf subject predicate) = none ↔
      ¬ HasAny ts subject predicate := by
  simp [HasAny, Triple.isOf]

/- A further value represents its pair if it is the lesser one. -/
theorem Represents.of_added
    {first : Option Triple}
    (hFirst : ∀ t, first = some t →
      Represents ts subject predicate t)
    (hNone : first = none → ¬ HasAny ts subject predicate)
    (hAdded : ∀ t, t ∈ us ↔
      t = ⟨subject, predicate, text⟩ ∨ t ∈ ts) :
    Represents us subject predicate
      ⟨subject, predicate,
        (first.map Triple.encoded).elim text (lesser text)⟩ := by
  cases first with
  | none =>
      refine ⟨(hAdded _).mpr (.inl rfl), rfl, rfl, ?_⟩
      intro u hMember hSubject hPredicate
      rcases (hAdded u).mp hMember with rfl | hOld
      · exact List.lt_irrefl _
      · exact absurd ⟨u, hOld, hSubject, hPredicate⟩ (hNone rfl)
  | some t =>
      rcases t with ⟨s, p, v⟩
      rcases hFirst _ rfl with ⟨hListed, rfl, rfl, hLeast⟩
      simp only [Option.map_some, Option.elim_some, lesser]
      split_ifs with hLess
      · refine ⟨(hAdded _).mpr (.inr hListed), rfl, rfl, ?_⟩
        intro u hMember hSubject hPredicate
        rcases (hAdded u).mp hMember with rfl | hOld
        · exact List.lt_asymm hLess
        · exact hLeast u hOld hSubject hPredicate
      · refine ⟨(hAdded _).mpr (.inl rfl), rfl, rfl, ?_⟩
        intro u hMember hSubject hPredicate
        rcases (hAdded u).mp hMember with rfl | hOld
        · exact List.lt_irrefl _
        · -- the new value is no greater than the old representative
          have hOrder : utf8 text ≤ utf8 u.encoded :=
            List.le_trans (List.not_lt.mp hLess)
              (List.not_lt.mp (hLeast u hOld hSubject hPredicate))
          exact List.not_lt.mpr hOrder

------------------------------------------------------------
-- The Least Row
------------------------------------------------------------

/- Of the rows of one pair the least comes first when sorted. -/
theorem Row.least?_eq_head?_sort
    {rows : List Row}
    (hPair : ∀ r ∈ rows,
      r.subject = subject ∧ r.predicate = predicate) :
    least? rows = (sort rows).head? := by
  cases rows with
  | nil => simp [least?, sort]
  | cons r rest =>
      have := transCmp_comap Cell.compare Row.value
      rcases foldl_least
          (fun a b : Row => a.value.compare b.value) r rest with
        ⟨hMember, hLeast⟩
      rcases List.exists_cons_of_ne_nil
          (List.ne_nil_of_mem (mem_sort_iff.mpr hMember)) with
        ⟨first, others, hSort⟩
      have hFirst : first ∈ r :: rest := by
        rw [← mem_sort_iff, hSort]
        exact List.mem_cons_self
      rw [least?, hSort, List.head?_cons, Option.some.injEq]
      generalize rest.foldl _ r = least at hMember hLeast
      -- rows of one pair compare as their values do
      have hCompare : ∀ q ∈ r :: rest,
          least.compare q = least.value.compare q.value := by
        intro q hq
        rcases hPair least hMember with ⟨hSubject, hPredicate⟩
        rcases hPair q hq with ⟨hSubject', hPredicate'⟩
        simp [Row.compare, compareLex, compareOn, hSubject,
          hPredicate, hSubject', hPredicate']
      have hBefore : (least.compare first).isLE := by
        rw [hCompare first hFirst]
        exact hLeast first hFirst
      have hAfter : (first.compare least).isLE := by
        have hSorted := sort_pairwise (r :: rest)
        rw [← mem_sort_iff, hSort] at hMember
        rw [hSort] at hSorted
        rcases List.mem_cons.mp hMember with rfl | hOthers
        · simp [Std.ReflCmp.compare_self]
        · exact (List.pairwise_cons.mp hSorted).1 _ hOthers
      exact Std.LawfulEqCmp.eq_of_compare
        (Std.OrientedCmp.isLE_antisymm hBefore hAfter)

namespace Store

variable {s : Store}
variable {c : Connection}
variable {rows : List Row}

/- What is read of a pair is the first of its triples listed. -/
theorem on_get_of_sort
    (hRows : c.content.rows s.collection = .ok rows)
    (hSort : Row.sort rows = ts.map Triple.row) :
    (s.get? subject predicate).on c =
      (.ok (ts.find? (Triple.isOf subject predicate)), c) := by
  have hOwn : Row.least? (rows.filter fun r =>
      r.subject = subject && r.predicate = predicate) =
        (ts.find? (Triple.isOf subject predicate)).map
          Triple.row := by
    have hPair : ∀ r ∈ rows.filter fun r =>
        r.subject = subject && r.predicate = predicate,
          r.subject = subject ∧ r.predicate = predicate := by
      intro r hMember
      simpa using (List.mem_filter.mp hMember).2
    rw [Row.least?_eq_head?_sort hPair, Row.sort_filter, hSort,
      List.filter_map, List.head?_map, List.head?_filter]
    rfl
  rw [on_get hRows, hOwn]
  cases ts.find? (Triple.isOf subject predicate) <;> rfl

/- After a value is set, the lesser of it and the one before is read. -/
theorem exists_set_get
    (hRows : c.content.rows s.collection = .ok rows)
    (hSound : Row.Sound rows)
    (hSort : Row.sort rows = ts.map Triple.row)
    (hAscending : ts.Pairwise fun t u => t.key < u.key)
    {d : Datum}
    {text : String}
    (hEncode : encode d = .ok text) :
    ∃ c', (s.set subject predicate d).on c = (.ok (), c') ∧
      (s.get? subject predicate).on c' =
        (.ok (some ⟨subject, predicate,
          ((ts.find? (Triple.isOf subject predicate)).map
            Triple.encoded).elim text (lesser text)⟩), c') := by
  let added : Triple := ⟨subject, predicate, text⟩
  have hRows' := Connection.rows_alter hRows (Row.upsert added.row)
  rcases (hSound.upsert added).exists_triples with
    ⟨us, hSort', hAscending'⟩
  have hAdded : ∀ t, t ∈ us ↔ t = added ∨ t ∈ ts := by
    intro t
    have hThere : t ∈ us ↔
        t.row ∈ Row.sort (Row.upsert added.row rows) := by
      simp [hSort']
    have hBefore : t ∈ ts ↔ t.row ∈ Row.sort rows := by
      simp [hSort]
    simp [hThere, hBefore]
  refine ⟨_, by rw [on_set hRows, hEncode], ?_⟩
  rw [on_get_of_sort hRows' hSort', (find?_eq_some_iff_represents
    hAscending').mpr (Represents.of_added
      (fun t => (find?_eq_some_iff_represents hAscending).mp)
      find?_eq_none_iff_not_hasAny.mp hAdded)]

/-
  On any reachable connection, what is read of a subject and a
  predicate is the first triple with this predicate that the
  query for the subject lists.  It is the one with the least
  value, and there is none exactly if the pair has no value.
  After a further value is set, the lesser of it and the one
  before is read.
-/
theorem get_first_about
    (s : Store)
    (c : Connection)
    (hReach : c.Reachable)
    (hTable : c.content.hasTable s.collection = true)
    (subject predicate : String) :
    ∃ ts us first,
      (s.list .all).on c = (.ok ts, c) ∧
      (s.list (.about (about subject))).on c = (.ok us, c) ∧
      (s.get? subject predicate).on c = (.ok first, c) ∧
      first = us.find? (fun t => t.predicate = predicate) ∧
      (∀ t, first = some t ↔
        Represents ts subject predicate t) ∧
      (first = none ↔ ¬ HasAny ts subject predicate) ∧
      ∀ d text, encode d = .ok text → ∃ c',
        (s.set subject predicate d).on c = (.ok (), c') ∧
        (s.get? subject predicate).on c' =
          (.ok (some ⟨subject, predicate,
            (first.map Triple.encoded).elim text
              (lesser text)⟩), c') := by
  rcases Database.hasTable_iff.mp hTable with ⟨rows, hRows⟩
  have hSound := hReach.rows_sound hRows
  rcases hSound.exists_triples with ⟨ts, hSort, hAscending⟩
  refine ⟨ts, _, _, on_list_all hRows hSort,
    on_list_of_rows hRows (Nat.zero_le _) (by simp [about,
      Query.ownNames]) (Query.list_statement hSort rfl),
    on_get_of_sort hRows hSort, ?_,
    fun _ => find?_eq_some_iff_represents hAscending,
    find?_eq_none_iff_not_hasAny, ?_⟩
  · rw [List.find?_filter]
    congr 1
    funext t
    rw [Bool.eq_iff_iff, Triple.isOf_iff]
    simp [Query.Selects, Query.Starts, about, Query.wheres,
      Query.has, Query.without]
  · intro d text hEncode
    exact exists_set_get hRows hSound hSort hAscending hEncode

/-
  A pair with one value.  A lesser value takes its place, and a
  greater one does not.
-/
theorem get_first_about_people :
    let s : Store := ⟨"people"⟩
    let c := ((s.set "ann" "tag" (.text "b")).on
      (.fresh "people")).2
    c.Reachable ∧ c.content.hasTable s.collection = true ∧
      (s.get? "ann" "tag").on c =
        (.ok (some ⟨"ann", "tag", "\"b\""⟩), c) ∧
      (∃ c', (s.set "ann" "tag" (.text "a")).on c =
          (.ok (), c') ∧
        (s.get? "ann" "tag").on c' =
          (.ok (some ⟨"ann", "tag", "\"a\""⟩), c')) ∧
      ∃ c', (s.set "ann" "tag" (.text "c")).on c =
          (.ok (), c') ∧
        (s.get? "ann" "tag").on c' =
          (.ok (some ⟨"ann", "tag", "\"b\""⟩), c') := by
  intro s c
  have hFold : foldName "people" = "people" := foldName_eq_self rfl
  have hFresh : (Connection.fresh "people").Reachable :=
    Connection.reachable_fresh (by decide) hFold (by decide)
  have hTable := Connection.hasTable_fresh hFold
  have hReach : c.Reachable :=
    hFresh.step (.perform s (.set "ann" "tag" (.text "b")))
  have hTable' : c.content.hasTable s.collection = true :=
    hasTable_runAll hTable [.set "ann" "tag" (.text "b")]
  have hNothing : (s.list .all).on (.fresh "people") =
      (.ok [], .fresh "people") :=
    on_list_all (Connection.rows_fresh hFold) (by simp [Row.sort])
  -- there is no value yet, then one
  rcases get_first_about s _ hFresh hTable "ann" "tag" with
    ⟨ts, _, first, hAll, _, _, _, _, hNone, hAfter⟩
  rw [hNothing, Prod.mk.injEq, Except.ok.injEq] at hAll
  rcases hAll with ⟨rfl, _⟩
  cases hNone.mpr (by simp [HasAny])
  rcases hAfter (.text "b") _ rfl with ⟨c', hSet, hGet⟩
  have hSame : c' = c := (congrArg Prod.snd hSet).symm
  rw [hSame] at hGet
  rcases get_first_about s c hReach hTable' "ann" "tag" with
    ⟨_, _, first', _, _, hGet', _, _, _, hAfter'⟩
  rw [hGet, Prod.mk.injEq, Except.ok.injEq] at hGet'
  rcases hGet' with ⟨rfl, _⟩
  exact ⟨hReach, hTable', hGet, hAfter' (.text "a") _ rfl,
    hAfter' (.text "c") _ rfl⟩

end Store

end Factbase
