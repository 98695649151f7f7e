import Factbase.Proofs.Query.Scans

/-
  Ranges of values that stand for something.

  A range compares texts.  Where the values of a predicate are
  the texts of keys of some kind, and the texts are in the order
  of the keys, a range of the texts is one of the keys: it visits
  the subjects with a key beyond the threshold, by the nearest of
  these.

  Key definitions include:
    * `Direction.Along`
    * `IsTour`
    * `Store.tourAnswer`
    * `Coding`

  Main declarations:
    * `IsTour.congr`
    * `Coding.exists_tour`
    * `Store.list_tour`
-/

namespace Factbase

variable {κ : Type}

------------------------------------------------------------
-- Tours
------------------------------------------------------------

/- An order of keys, taken in a direction. -/
def Direction.Along
    (d : Direction)
    (before : κ → κ → Prop)
    (a b : κ) : Prop :=
  match d with
  | .ascending => before a b
  | .descending => before b a

/-
  The subjects with a key beyond a threshold, each once and with
  the nearest such key, in the order of these and by subject
  where they are the same.
-/
structure IsTour
    (has : String → κ → Prop)
    (sooner : κ → κ → Prop)
    (threshold : κ)
    (tour : List (String × κ)) : Prop where
  ordered : tour.Pairwise fun a b =>
    sooner a.2 b.2 ∨ a.2 = b.2 ∧ utf8 a.1 < utf8 b.1
  once : (tour.map Prod.fst).Nodup
  visited : ∀ s, s ∈ tour.map Prod.fst ↔
    ∃ k, has s k ∧ sooner threshold k
  nearest : ∀ a ∈ tour,
    (has a.1 a.2 ∧ sooner threshold a.2) ∧
    ∀ k, has a.1 k → sooner threshold k → ¬ sooner k a.2

/-
  The triples of the subjects of a tour, those of one after
  another.  A range cannot list them if the collection has a
  name that its statement gives to a set of its own.
-/
def Store.tourAnswer
    (ts : List Triple)
    (s : Store)
    (r : RangeQuery)
    (subjects : List String) :
    Except StoreError (List Triple) :=
  if foldName s.collection ∈ (Query.range r).ownNames then
    .error (.execution
      (.circularReference (foldName s.collection)))
  else
    .ok (subjects.flatMap fun subject =>
      ts.filter fun u => u.subject = subject)

/- Orders that agree on the keys that are there have one tour. -/
theorem IsTour.congr
    {has has' : String → κ → Prop}
    {sooner sooner' : κ → κ → Prop}
    {threshold : κ}
    {tour : List (String × κ)}
    (hTour : IsTour has sooner threshold tour)
    (hHas : ∀ s k, has s k ↔ has' s k)
    (hThreshold : ∀ s k, has s k →
      (sooner threshold k ↔ sooner' threshold k))
    (hSooner : ∀ s a s' b, has s a → has s' b →
      (sooner a b ↔ sooner' a b)) :
    IsTour has' sooner' threshold tour := by
  have hReached : ∀ s k, has s k ∧ sooner threshold k ↔
      has' s k ∧ sooner' threshold k := by
    intro s k
    rw [← hHas]
    exact and_congr_right (hThreshold s k)
  refine ⟨?_, hTour.once, ?_, ?_⟩
  · apply hTour.ordered.imp_of_mem
    intro a b hA hB hOrder
    exact hOrder.imp_left (hSooner _ _ _ _
      (hTour.nearest a hA).1.1 (hTour.nearest b hB).1.1).mp
  · intro s
    rw [hTour.visited]
    exact exists_congr (hReached s)
  · intro a hA
    have hNearest := hTour.nearest a hA
    refine ⟨(hReached _ _).mp hNearest.1, ?_⟩
    intro k hHas' hBeyond hNearer
    have hKey := (hReached a.1 k).mpr ⟨hHas', hBeyond⟩
    exact hNearest.2 k hKey.1 hKey.2
      ((hSooner _ _ _ _ hKey.1 hNearest.1.1).mpr hNearer)

------------------------------------------------------------
-- Codings
------------------------------------------------------------

/- Keys with texts, which are in the order of the keys. -/
structure Coding (κ : Type) where
  Fits : κ → Prop
  text : κ → String
  Before : κ → κ → Prop
  before_iff : ∀ {a b}, Fits a → Fits b →
    (utf8 (text a) < utf8 (text b) ↔ Before a b)
  text_inj : ∀ {a b}, Fits a → Fits b →
    (text a = text b ↔ a = b)

namespace Coding

/- A subject has a key for a predicate. -/
def Has
    (coding : Coding κ)
    (ts : List Triple)
    (predicate subject : String)
    (k : κ) : Prop :=
  coding.Fits k ∧ ⟨subject, predicate, coding.text k⟩ ∈ ts

/- The values of a predicate are texts of keys. -/
def Covers
    (coding : Coding κ)
    (ts : List Triple)
    (predicate : String) : Prop :=
  ∀ u ∈ ts, u.predicate = predicate →
    ∃ k, coding.Fits k ∧ u.encoded = coding.text k

/- The range of the keys beyond a threshold. -/
def range
    (coding : Coding κ)
    (predicate : String)
    (d : Direction)
    (threshold : κ) : RangeQuery :=
  ⟨predicate, coding.text threshold, d, none, [], []⟩

/- The scan of the keys beyond a threshold. -/
def scan
    (coding : Coding κ)
    (predicate : String)
    (d : Direction)
    (threshold : κ) : Scan :=
  ⟨predicate, some (coding.text threshold), d⟩

variable {coding : Coding κ}
variable {ts : List Triple}
variable {subject predicate : String}
variable {d : Direction}
variable {a b k t : κ}

theorem before_text_iff
    (ha : coding.Fits a)
    (hb : coding.Fits b) :
    d.Before (coding.text a) (coding.text b) ↔
      d.Along coding.Before a b := by
  cases d with
  | ascending => exact coding.before_iff ha hb
  | descending => exact coding.before_iff hb ha

theorem inRange_text_iff
    (ht : coding.Fits t)
    (hk : coding.Fits k) :
    (coding.scan predicate d t).InRange (coding.text k) ↔
      d.Along coding.Before t k := by
  simp [scan, Scan.InRange, before_text_iff ht hk]

theorem reaches_iff
    (ht : coding.Fits t)
    (hCovers : coding.Covers ts predicate) :
    (coding.scan predicate d t).Reaches ts subject ↔
      ∃ k, coding.Has ts predicate subject k ∧
        d.Along coding.Before t k := by
  constructor
  · rintro ⟨⟨_, _, value⟩, hTriple, rfl, rfl, hRange⟩
    rcases hCovers _ hTriple rfl with ⟨k, hk, rfl⟩
    exact ⟨k, ⟨hk, hTriple⟩, (inRange_text_iff ht hk).mp hRange⟩
  · rintro ⟨k, ⟨hk, hTriple⟩, hSooner⟩
    exact ⟨_, hTriple, rfl, rfl,
      (inRange_text_iff ht hk).mpr hSooner⟩

/- A ranking by texts of keys is one by the keys. -/
theorem exists_keys
    {ranking : List (String × String)}
    (hKeys : ∀ a ∈ ranking,
      ∃ k, coding.Fits k ∧ a.2 = coding.text k) :
    ∃ tour : List (String × κ),
      (∀ a ∈ tour, coding.Fits a.2) ∧
        tour.map (fun a => (a.1, coding.text a.2)) = ranking := by
  induction ranking with
  | nil => exact ⟨[], by simp, rfl⟩
  | cons place ranking ih =>
      rw [List.forall_mem_cons] at hKeys
      rcases place with ⟨subject, key⟩
      rcases hKeys with ⟨⟨k, hk, rfl⟩, hRest⟩
      rcases ih hRest with ⟨tour, hFits, rfl⟩
      exact ⟨(subject, k) :: tour,
        List.forall_mem_cons.mpr ⟨hk, hFits⟩, rfl⟩

/- The ranking of a scan of keys is a tour of them. -/
theorem exists_tour
    {q : Query}
    {ranking : List (String × String)}
    (hRanking : (coding.scan predicate d t).IsRanking ts q ranking)
    (hSelects : ∀ s, q.Selects ts s ↔
      (coding.scan predicate d t).Reaches ts s)
    (ht : coding.Fits t)
    (hCovers : coding.Covers ts predicate) :
    ∃ tour : List (String × κ),
      IsTour (coding.Has ts predicate) (d.Along coding.Before) t
        tour ∧
        ranking.map Prod.fst = tour.map Prod.fst := by
  rcases exists_keys fun a hPlace =>
      hCovers _ (hRanking.keyed a hPlace).1.1 rfl with
    ⟨tour, hFits, rfl⟩
  have hSubjects :
      (tour.map fun a => (a.1, coding.text a.2)).map Prod.fst =
        tour.map Prod.fst := by
    rw [List.map_map]
    rfl
  refine ⟨tour, ⟨?_, ?_, ?_, ?_⟩, hSubjects⟩
  · apply (List.pairwise_map.mp hRanking.ordered).imp_of_mem
    intro a b hA hB hPrecedes
    rw [Scan.Precedes, coding.text_inj (hFits a hA)
      (hFits b hB)] at hPrecedes
    exact hPrecedes.imp_left
      (before_text_iff (hFits a hA) (hFits b hB)).mp
  · rw [← hSubjects]
    exact hRanking.once
  · intro s
    rw [← hSubjects, hRanking.selected, hSelects,
      reaches_iff ht hCovers]
  · intro a hA
    rcases hRanking.keyed _ (List.mem_map_of_mem hA) with
      ⟨⟨hTriple, hRange⟩, hLeast⟩
    refine ⟨⟨⟨hFits a hA, hTriple⟩,
      (inRange_text_iff ht (hFits a hA)).mp hRange⟩, ?_⟩
    rintro k ⟨hk, hTriple'⟩ hSooner hNearer
    exact hLeast _ hTriple' ((inRange_text_iff ht hk).mpr hSooner)
      ((before_text_iff hk (hFits a hA)).mpr hNearer)

end Coding

------------------------------------------------------------
-- Lists of Ranges
------------------------------------------------------------

namespace Store

variable {ts : List Triple}
variable {predicate : String}

/- A list of all triples is one of the rows of the collection. -/
theorem exists_rows_of_list_all
    {s : Store}
    {c : Connection}
    (hReach : c.Reachable)
    (hAll : (s.list .all).on c = (.ok ts, c)) :
    ∃ rows, c.content.rows s.collection = .ok rows ∧
      Row.sort rows = ts.map Triple.row := by
  cases hRows : c.content.rows s.collection with
  | error fault =>
      have hPrepare :
          c.content.prepare s.collection .everything =
            .error fault := by
        simp [Database.prepare, Template.parameters,
          Template.terms, Template.names, hRows]
      rw [on_list] at hAll
      simp [Query.statement, hPrepare] at hAll
  | ok rows =>
      rcases (hReach.rows_sound hRows).exists_triples with
        ⟨us, hSort, _⟩
      rw [on_list_all hRows hSort, Prod.mk.injEq,
        Except.ok.injEq] at hAll
      exact ⟨rows, rfl, hAll.1 ▸ hSort⟩

/- What is listed when two subjects have got a value each. -/
theorem on_list_all_pair
    {s : Store}
    {c : Connection}
    (hRows : c.content.rows s.collection = .ok [])
    {first second : String}
    {d e : Datum}
    {v w : String}
    (hEncode : encode d = .ok v)
    (hEncode' : encode e = .ok w)
    (hSubjects : compare first second = .lt) :
    let c' := ((s.set first predicate d).on
      ((s.set second predicate e).on c).2).2
    (s.list .all).on c' =
      (.ok [⟨first, predicate, v⟩, ⟨second, predicate, w⟩],
        c') := by
  intro c'
  let ts : List Triple :=
    [⟨first, predicate, v⟩, ⟨second, predicate, w⟩]
  have hNe : first ≠ second := by
    rintro rfl
    have hSame : compare first first = .eq :=
      Std.ReflCmp.compare_self
    rw [hSame] at hSubjects
    cases hSubjects
  have hUpserts :
      Row.upsert (Triple.row ⟨first, predicate, v⟩)
        (Row.upsert (Triple.row ⟨second, predicate, w⟩) []) =
      ts.map Triple.row := by
    simp [Row.upsert, Triple.row, hNe, ts]
  have hSort : Row.sort (ts.map Triple.row) =
      ts.map Triple.row := by
    apply Row.sort_eq_of_perm (List.Perm.refl _)
    apply List.pairwise_pair.mpr
    simp [Row.compare, compareLex, compareOn, Triple.row,
      hSubjects]
  have hSet := on_set hRows second predicate e
  rw [hEncode'] at hSet
  have hRows' := Connection.rows_alter hRows
    (Row.upsert (Triple.row ⟨second, predicate, w⟩))
  have hSet' := on_set hRows' first predicate d
  rw [hEncode] at hSet'
  have hRows'' := Connection.rows_alter hRows'
    (Row.upsert (Triple.row ⟨first, predicate, v⟩))
  rw [hUpserts] at hRows''
  simp only [c', hSet, hSet']
  exact on_list_all hRows'' hSort

/-
  A range of keys lists the triples of the subjects of a tour,
  unless the collection has a name that the statement gives to a
  set of its own.
-/
theorem list_tour
    {s : Store}
    {c : Connection}
    (coding : Coding κ)
    (hReach : c.Reachable)
    (hAll : (s.list .all).on c = (.ok ts, c))
    (hCovers : coding.Covers ts predicate)
    {t : κ}
    (ht : coding.Fits t)
    (d : Direction) :
    ∃ tour,
      IsTour (coding.Has ts predicate) (d.Along coding.Before) t
        tour ∧
      (s.list (.range (coding.range predicate d t))).on c =
        (s.tourAnswer ts (coding.range predicate d t)
          (tour.map Prod.fst), c) := by
  rcases exists_rows_of_list_all hReach hAll with
    ⟨rows, hRows, hSort⟩
  rcases Scan.exists_list_statement hSort
      (q := .range (coding.range predicate d t))
      (k := coding.scan predicate d t) rfl with
    ⟨ranking, hRanking, hList⟩
  have hSelects : ∀ s,
      (Query.range (coding.range predicate d t)).Selects ts s ↔
        (coding.scan predicate d t).Reaches ts s := by
    intro s
    rw [Query.selects_iff_of_scan ts s
      (k := coding.scan predicate d t) rfl]
    simp [Coding.range, Query.wheres, Query.without]
  rcases Coding.exists_tour hRanking hSelects ht hCovers with
    ⟨tour, hTour, hSubjects⟩
  refine ⟨tour, hTour, ?_⟩
  have hTriples : listing ts ranking =
      (tour.map Prod.fst).flatMap fun subject =>
        ts.filter fun u => u.subject = subject := by
    rw [listing, ← hSubjects, List.flatMap_map]
  have hStatement :
      (Query.range (coding.range predicate d t)).statement.list
        rows = (listing ts ranking).map Triple.row := hList none
  have hSets :
      (Query.range (coding.range predicate d t)).sets = 1 := rfl
  rw [on_list_query hRows, hSets, if_neg (by decide),
    hStatement, Row.readAll_map_row, hTriples]
  rfl

end Store

end Factbase
