import Factbase.Proofs.Query.Separation

/-
  Subjects at a threshold.

  A value of a predicate lies below a threshold, is the same or
  lies above it.  The range that ends at the threshold, the query
  for the threshold itself and the range that starts there each
  find the subjects by the values on their side.  So together
  they find the subjects that a scan without a threshold finds,
  and of a subject with one value only one of them does.

  Key definitions include:
    * `Side`
    * `Side.Has`
    * `Side.query`
    * `Side.IsAsked`

  Main declarations:
    * `Side.existsUnique_has`
    * `Side.selects_select_iff`
    * `Store.exists_order_and_side_lists`
    * `Store.list_by_side`
-/

namespace Factbase

variable {ts : List Triple}
variable {subject predicate threshold v : String}
variable {d : Datum}
variable {side : Side}

------------------------------------------------------------
-- Sides of a Threshold
------------------------------------------------------------

/- Where a value lies, seen from a threshold. -/
inductive Side where
  | below
  | same
  | above

namespace Side

/- A value lies on a side of a threshold. -/
def Has (threshold v : String) : Side → Prop
  | .below => utf8 v < utf8 threshold
  | .same => v = threshold
  | .above => utf8 threshold < utf8 v

/- The query for the subjects with a value on a side of a datum. -/
def query
    (predicate : String)
    (d : Datum) : Side → Except StoreError Query
  | .below => (before predicate d).map .range
  | .same => (whereEq predicate d).map .matching
  | .above => (after predicate d).map .range

/- The same query for a threshold that is encoded already. -/
def select (predicate threshold : String) : Side → Query
  | .below =>
      .range ⟨predicate, threshold, .descending, none, [], []⟩
  | .same => .matching ⟨.equals ⟨predicate, threshold⟩, [], [], []⟩
  | .above =>
      .range ⟨predicate, threshold, .ascending, none, [], []⟩

/- One of the orders of a predicate or one of the sides. -/
def IsAsked
    (predicate : String)
    (d : Datum)
    (q : Query) : Prop :=
  q = .order (ascending predicate) ∨
    q = .order (descending predicate) ∨
    ∃ side : Side, side.query predicate d = .ok q

/- Every value lies on one side, and on no other one. -/
theorem existsUnique_has (threshold v : String) :
    ∃! side : Side, side.Has threshold v := by
  by_cases hBelow : utf8 v < utf8 threshold
  · refine ⟨.below, hBelow, ?_⟩
    intro side hHas
    cases side with
    | below => rfl
    | same =>
        rw [hHas] at hBelow
        exact absurd hBelow (List.lt_irrefl _)
    | above => exact absurd hHas (List.lt_asymm hBelow)
  · by_cases hAbove : utf8 threshold < utf8 v
    · refine ⟨.above, hAbove, ?_⟩
      intro side hHas
      cases side with
      | below => exact absurd hHas hBelow
      | same =>
          rw [hHas] at hAbove
          exact absurd hAbove (List.lt_irrefl _)
      | above => rfl
    · refine ⟨.same, eq_of_not_utf8_lt hBelow hAbove, ?_⟩
      intro side hHas
      cases side with
      | below => exact absurd hHas hBelow
      | same => rfl
      | above => exact absurd hHas hAbove

/- A datum is compared as its encoding. -/
theorem query_of_encode
    (hEncode : encode d = .ok threshold)
    (side : Side) :
    side.query predicate d =
      .ok (side.select predicate threshold) := by
  cases side with
  | below =>
      rw [query, before, RangeQuery.beyond, hEncode]
      rfl
  | same =>
      rw [query, whereEq_eq_ok_iff.mpr ⟨threshold, hEncode, rfl⟩]
      rfl
  | above =>
      rw [query, after, RangeQuery.beyond, hEncode]
      rfl

------------------------------------------------------------
-- Queries of Sides
------------------------------------------------------------

theorem sets_select (side : Side) :
    (side.select predicate threshold).sets = 1 := by
  cases side <;> rfl

theorem ownNames_select_subset (side : Side) :
    (side.select predicate threshold).ownNames ⊆
      ["candidates", "ordered_subjects"] := by
  cases side <;> simp [select, Query.ownNames]

theorem limit_select (side : Side) :
    (side.select predicate threshold).limit? = none := by
  cases side <;> rfl

theorem sets_of_isAsked
    (hEncode : encode d = .ok threshold)
    {q : Query}
    (hAsked : IsAsked predicate d q) : q.sets = 1 := by
  rcases hAsked with rfl | rfl | ⟨side, hSide⟩
  · rfl
  · rfl
  · rw [query_of_encode hEncode, Except.ok.injEq] at hSide
    rw [← hSide, sets_select]

/- A query finds a subject by the values on its side. -/
theorem selects_select_iff :
    (side.select predicate threshold).Selects ts subject ↔
      ∃ v, ⟨subject, predicate, v⟩ ∈ ts ∧ side.Has threshold v := by
  have hRange : ∀ direction : Direction,
      (Query.range ⟨predicate, threshold, direction, none, [],
          []⟩).Selects ts subject ↔
        ∃ v, ⟨subject, predicate, v⟩ ∈ ts ∧
          direction.Before threshold v := by
    intro direction
    rw [Query.selects_iff_of_scan ts subject rfl]
    simp only [Scan.Reaches, Scan.InRange, Query.wheres,
      Query.without]
    constructor
    · rintro ⟨⟨⟨_, _, v⟩, hTriple, rfl, rfl, hBefore⟩, _⟩
      exact ⟨v, hTriple, hBefore threshold rfl⟩
    · rintro ⟨v, hTriple, hBefore⟩
      refine ⟨⟨_, hTriple, rfl, rfl, ?_⟩, by simp, by simp⟩
      rintro w hThreshold
      cases hThreshold
      exact hBefore
  cases side with
  | below => exact hRange .descending
  | above => exact hRange .ascending
  | same =>
      simp [select, Query.Selects, Query.Starts, Primary.Holds,
        Clause.Holds, Query.wheres, Query.has, Query.without, Has]

/- All values of a subject together lie on some side. -/
theorem exists_has_iff :
    (∃ side : Side, ∃ v, ⟨subject, predicate, v⟩ ∈ ts ∧
        side.Has threshold v) ↔
      HasAny ts subject predicate := by
  constructor
  · rintro ⟨_, v, hTriple, _⟩
    exact ⟨_, hTriple, rfl, rfl⟩
  · rintro ⟨⟨_, _, v⟩, hTriple, rfl, rfl⟩
    rcases (existsUnique_has threshold v).exists with
      ⟨side, hHas⟩
    exact ⟨side, v, hTriple, hHas⟩

/- A single value of a subject lies on a single side. -/
theorem existsUnique_of_value
    (hSingle : ∃! v, ⟨subject, predicate, v⟩ ∈ ts) :
    ∃! side : Side, ∃ v, ⟨subject, predicate, v⟩ ∈ ts ∧
      side.Has threshold v := by
  rcases hSingle with ⟨v, hTriple, hOnly⟩
  rcases existsUnique_has threshold v with ⟨side, hHas, hOther⟩
  refine ⟨side, ⟨v, hTriple, hHas⟩, ?_⟩
  rintro other ⟨w, hTriple', hHas'⟩
  rw [hOnly w hTriple'] at hHas'
  exact hOther other hHas'

end Side

------------------------------------------------------------
-- Lists at a Threshold
------------------------------------------------------------

theorem Query.selects_order_iff (direction : Direction) :
    (Query.order ⟨predicate, direction, [], []⟩).Selects ts
        subject ↔
      HasAny ts subject predicate := by
  rw [selects_iff_of_scan ts subject rfl]
  simp [Scan.Reaches, Scan.InRange, wheres, without, HasAny]

namespace Store

variable {s : Store}
variable {c : Connection}

/-
  A query of one set without a limit lists the subjects that it
  selects, if it selects by triples that are there.
-/
theorem exists_list_of_single
    (hReach : c.Reachable)
    (hTable : c.content.hasTable s.collection = true)
    (predicate : String) :
    ∃ ts, (s.list .all).on c = (.ok ts, c) ∧
      ∀ q : Query, q.sets = 1 → q.limit? = none →
        foldName s.collection ∉ q.ownNames →
        (∀ subject, q.Selects ts subject →
          HasAny ts subject predicate) →
        ∃ us, (s.list q).on c = (.ok us, c) ∧
          ∀ subject, subject ∈ us.map Triple.subject ↔
            q.Selects ts subject := by
  rcases exists_lists hReach hTable with ⟨ts, hAll, _, hEach⟩
  refine ⟨ts, hAll, ?_⟩
  intro q hSets hLimit hName hThere
  have hTerms : q.sets ≤ Database.mostTerms := by
    rw [hSets]
    decide
  rcases hEach q ⟨hTable, hTerms, hName⟩ with ⟨us, hLists, hList⟩
  refine ⟨us, hList, ?_⟩
  intro subject
  rw [hLists.mem_subjects_iff hLimit, and_iff_right_iff_imp]
  intro hSelects
  rcases hThere subject hSelects with ⟨t, hTriple, rfl, _⟩
  exact List.mem_map_of_mem hTriple

/-
  The orders of a predicate list the subjects with any value of
  it, and a side lists those with a value on this side.
-/
theorem exists_order_and_side_lists
    (hReach : c.Reachable)
    (hTable : c.content.hasTable s.collection = true)
    (hName :
      foldName s.collection ∉ ["candidates", "ordered_subjects"])
    (predicate threshold : String) :
    ∃ ts, (s.list .all).on c = (.ok ts, c) ∧
      (∀ direction : Direction, ∃ us,
        (s.list (.order ⟨predicate, direction, [], []⟩)).on c =
          (.ok us, c) ∧
        ∀ subject, subject ∈ us.map Triple.subject ↔
          HasAny ts subject predicate) ∧
      ∀ side : Side, ∃ us,
        (s.list (side.select predicate threshold)).on c =
          (.ok us, c) ∧
        ∀ subject, subject ∈ us.map Triple.subject ↔
          ∃ v, ⟨subject, predicate, v⟩ ∈ ts ∧
            side.Has threshold v := by
  rcases exists_list_of_single hReach hTable predicate with
    ⟨ts, hAll, hEach⟩
  refine ⟨ts, hAll, ?_, ?_⟩
  · intro direction
    rcases hEach (.order ⟨predicate, direction, [], []⟩) rfl rfl
        hName
        (fun _ => (Query.selects_order_iff direction).mp) with
      ⟨us, hList, hSubjects⟩
    refine ⟨us, hList, fun subject => ?_⟩
    rw [hSubjects, Query.selects_order_iff]
  · intro side
    rcases hEach (side.select predicate threshold)
        (Side.sets_select side) (Side.limit_select side)
        (fun hOwn => hName (Side.ownNames_select_subset side hOwn))
        (fun _ hSelects => Side.exists_has_iff.mp
          ⟨side, Side.selects_select_iff.mp hSelects⟩) with
      ⟨us, hList, hSubjects⟩
    refine ⟨us, hList, fun subject => ?_⟩
    rw [hSubjects, Side.selects_select_iff]

/- On a collection with one of its own names a query fails. -/
theorem on_list_of_single_own
    (hTable : c.content.hasTable s.collection = true)
    {q : Query}
    (hSets : q.sets = 1)
    (hName : foldName s.collection ∈ q.ownNames) :
    (s.list q).on c =
      (.error (.execution
        (.circularReference (foldName s.collection))), c) := by
  rcases Database.hasTable_iff.mp hTable with ⟨rows, hRows⟩
  have hTerms : ¬ Database.mostTerms < q.sets := by
    rw [hSets]
    decide
  rw [on_list_query hRows, if_neg hTerms, if_pos hName]

/-
  On any reachable connection both orders of a predicate list
  the same subjects, which are those that the three sides of a
  threshold list together.  A subject with one value is listed
  on one side, a subject with more of them on each side where it
  has a value.  On a collection that has the name of a set that
  the statement makes, a query fails.
-/
theorem list_by_side
    (s : Store)
    (c : Connection)
    (hReach : c.Reachable)
    (hTable : c.content.hasTable s.collection = true)
    (predicate : String)
    {d : Datum}
    {threshold : String}
    (hEncode : encode d = .ok threshold) :
    (foldName s.collection ∉ ["candidates", "ordered_subjects"] →
      ∃ ts up down, ∃ listed : Side → List Triple,
        (s.list .all).on c = (.ok ts, c) ∧
        (s.list (.order (ascending predicate))).on c =
          (.ok up, c) ∧
        (s.list (.order (descending predicate))).on c =
          (.ok down, c) ∧
        (∀ side : Side, ∃ q, side.query predicate d = .ok q ∧
          (s.list q).on c = (.ok (listed side), c)) ∧
        ∀ subject,
          (subject ∈ up.map Triple.subject ↔
            subject ∈ down.map Triple.subject) ∧
          (subject ∈ up.map Triple.subject ↔
            ∃ side, subject ∈ (listed side).map Triple.subject) ∧
          ((∃! v, ⟨subject, predicate, v⟩ ∈ ts) →
            ∃! side,
              subject ∈ (listed side).map Triple.subject) ∧
          ∀ side,
            subject ∈ (listed side).map Triple.subject ↔
              ∃ v, ⟨subject, predicate, v⟩ ∈ ts ∧
                side.Has threshold v) ∧
    ∀ q, Side.IsAsked predicate d q →
      foldName s.collection ∈ q.ownNames →
      (s.list q).on c =
        (.error (.execution
          (.circularReference (foldName s.collection))), c) := by
  constructor
  · intro hName
    rcases exists_order_and_side_lists hReach hTable hName
      predicate threshold with ⟨ts, hAll, hOrder, hSide⟩
    rcases hOrder .ascending with ⟨up, hUp, hUpHas⟩
    rcases hOrder .descending with ⟨down, hDown, hDownHas⟩
    choose listed hListed hListedHas using hSide
    refine ⟨ts, up, down, listed, hAll, hUp, hDown, ?_, ?_⟩
    · intro side
      exact ⟨_, Side.query_of_encode hEncode side, hListed side⟩
    · intro subject
      simp only [hUpHas, hDownHas, hListedHas, true_and]
      exact ⟨Side.exists_has_iff.symm, Side.existsUnique_of_value,
        fun _ => trivial⟩
  · intro q hAsked hName
    exact on_list_of_single_own hTable
      (Side.sets_of_isAsked hEncode hAsked) hName

/-
  A subject with the threshold as one value and a later one as
  another, written to two collections.  Only the name of the
  second one makes the queries fail.
-/
theorem list_by_side_people_candidates :
    let d : Datum := .integer 24
    let writes : List Command :=
      [.set "ann" "age" d, .set "ann" "age" (.integer 30)]
    let people := (runAll ⟨"people"⟩ writes (.fresh "people")).2
    let others :=
      (runAll ⟨"candidates"⟩ writes (.fresh "candidates")).2
    encode d = .ok "24" ∧
    (∃ listed : Side → List Triple,
      (∀ side : Side, ∃ q, side.query "age" d = .ok q ∧
        (list ⟨"people"⟩ q).on people =
          (.ok (listed side), people)) ∧
      "ann" ∈ (listed .same).map Triple.subject ∧
      "ann" ∈ (listed .above).map Triple.subject) ∧
    (list ⟨"candidates"⟩ (.order (ascending "age"))).on others =
      (.error (.execution (.circularReference "candidates")),
        others) := by
  intro d writes people others
  have hEncode : encode d = .ok "24" := rfl
  have hLater : encode (.integer 30) = .ok "30" := rfl
  have hPeople : foldName "people" = "people" :=
    foldName_eq_self rfl
  have hOthers : foldName "candidates" = "candidates" :=
    foldName_eq_self rfl
  have hReachPeople : (Connection.fresh "people").Reachable :=
    Connection.reachable_fresh (by decide) hPeople (by decide)
  have hReachOthers : (Connection.fresh "candidates").Reachable :=
    Connection.reachable_fresh (by decide) hOthers (by decide)
  refine ⟨hEncode, ?_, ?_⟩
  · have hAdds : (Command.set "ann" "age" d).Adds
        ⟨"ann", "age", "24"⟩ := ⟨rfl, rfl, hEncode⟩
    have hAdds' : (Command.set "ann" "age" (.integer 30)).Adds
        ⟨"ann", "age", "30"⟩ := ⟨rfl, rfl, hLater⟩
    have hFirst : (Command.set "ann" "age" d).Succeeds false :=
      ⟨_, hEncode⟩
    have hSecond :
        (Command.set "ann" "age" (.integer 30)).Succeeds false :=
      ⟨_, hLater⟩
    rcases exists_both_listed (s := ⟨"people"⟩) hReachPeople
        (Connection.hasTable_fresh hPeople) hFirst hSecond hAdds
        hAdds' with
      ⟨c', ts, hRun, hAll, hSame, hAbove⟩
    have hTable := hasTable_runAll (s := ⟨"people"⟩)
      (Connection.hasTable_fresh hPeople) writes
    rcases (list_by_side ⟨"people"⟩ people
        (hReachPeople.runAll _ writes) hTable "age" hEncode).1
        (by rw [hPeople]; decide) with
      ⟨ts', _, _, listed, hAll', _, _, hListed, hSubjects⟩
    have hLast : people = c' := congrArg Prod.snd hRun
    rw [hLast, hAll, Prod.mk.injEq, Except.ok.injEq] at hAll'
    rw [← hAll'.1] at hSubjects
    have hSides := (hSubjects "ann").2.2.2
    have hAfter : utf8 "24" < utf8 "30" := by decide
    exact ⟨listed, hListed,
      (hSides .same).mpr ⟨_, hSame, rfl⟩,
      (hSides .above).mpr ⟨_, hAbove, hAfter⟩⟩
  · have hTable := hasTable_runAll (s := ⟨"candidates"⟩)
      (Connection.hasTable_fresh hOthers) writes
    have hFails := (list_by_side ⟨"candidates"⟩ others
      (hReachOthers.runAll _ writes) hTable "age" hEncode).2
      (.order (ascending "age")) (.inl rfl)
      (by rw [hOthers]; decide)
    rwa [hOthers] at hFails

end Store

end Factbase
