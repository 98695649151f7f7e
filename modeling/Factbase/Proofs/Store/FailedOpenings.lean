import Factbase.Proofs.Store.Openings

/-
  What a failed opening leaves.

  An opening makes the table of a collection and then its index,
  each on its own.  Where the database takes the table and
  refuses the index, the opening fails and the table stays.  It
  has the name that the index of another collection would have,
  so that collection can no longer be opened.  Every other
  failure leaves the connection as it was.

  Key definitions include:
    * `Database.LeavesTable`
    * `Database.withTable`

  Main declarations:
    * `Connection.opens_iff_free`
    * `Connection.opens_withTable_iff`
    * `Connection.failed_opening`
-/

namespace Factbase

------------------------------------------------------------
-- Tables without an Index
------------------------------------------------------------

namespace Database

variable {db : Database}
variable {name : String}

/- A database with an empty table added. -/
def withTable
    (db : Database)
    (name : String) : Database :=
  { db with tables := (foldName name, []) :: db.tables }

/-
  A database takes the table of a collection that it does not
  have, but refuses its index.
-/
structure LeavesTable
    (db : Database)
    (name : String) : Prop where
  valid : validateCollection name = .ok ()
  noTable : db.hasTable name = false
  noIndex : db.hasIndex name = false
  refuses :
    isReserved (indexName name) = true ∨
      db.hasTable (indexName name) = true

/- The new table is there with all others. -/
theorem hasTable_withTable (x : String) :
    (db.withTable name).hasTable x = true ↔
      foldName x = foldName name ∨ db.hasTable x = true := by
  simp [hasTable_iff_exists, withTable]

theorem hasIndex_withTable (x : String) :
    (db.withTable name).hasIndex x = db.hasIndex x := rfl

theorem tables_withTable_ne :
    (db.withTable name).tables ≠ db.tables := by
  intro hSame
  have hLength := congrArg List.length hSame
  simp [withTable] at hLength

/- A table is there, or it is added. -/
theorem createTable_cases
    {db' : Database}
    (hCreate : db.createTable name = .ok db') :
    (db.hasTable name = true ∧ db' = db) ∨
      (db.hasTable name = false ∧ db.hasIndex name = false ∧
        db' = db.withTable name) := by
  rw [createTable] at hCreate
  split_ifs at hCreate with _ hTable hIndex
  · cases hCreate
    exact .inl ⟨hTable, rfl⟩
  · cases hCreate
    exact .inr ⟨by simpa using hTable, by simpa using hIndex, rfl⟩

end Database

------------------------------------------------------------
-- Openings
------------------------------------------------------------

namespace Connection

variable {c c' : Connection}
variable {db : Database}
variable {name : String}

/-
  A collection opens if its own name and that of its index are
  free, or taken by itself.
-/
theorem opens_iff_free
    (hName : validateCollection name = .ok ()) :
    c.Opens name ↔
      (c.content.hasTable name = true ∨
        c.content.hasIndex name = false) ∧
      isReserved (indexName name) = false ∧
      c.content.hasTable (indexName name) = false := by
  rw [opens_iff_made hName]
  constructor
  · rintro ⟨db, db', hTable, hIndex⟩
    rcases Database.createTable_spec hTable with
      ⟨hFree, hTables, _⟩
    rcases Database.createIndex_spec hIndex with
      ⟨hPlain, hNone, _, _⟩
    refine ⟨hFree, hPlain, ?_⟩
    rw [Bool.eq_false_iff] at hNone ⊢
    exact fun hTaken => hNone ((hTables _).mpr (.inr hTaken))
  · rintro ⟨hFree, hPlain, hNone⟩
    cases hTable : c.content.createTable name with
    | error fault =>
        rcases Database.createTable_error
          (isReserved_of_valid hName) hTable with ⟨hNot, hIndex⟩
        rw [hNot, hIndex] at hFree
        simp at hFree
    | ok db =>
        cases hIndex : db.createIndex name with
        | ok db' => exact ⟨db, db', rfl, hIndex⟩
        | error fault =>
            exfalso
            rcases Database.createIndex_error hIndex with
              hKept | hTaken
            · rw [hPlain] at hKept
              cases hKept
            · rcases ((Database.createTable_spec hTable).2.1
                _).mp hTaken with hSame | hTaken
              · exact foldName_indexName_ne name hSame
              · rw [hNone] at hTaken
                cases hTaken

/- An invalid name is refused before anything is made. -/
theorem on_migrate_invalid
    (hName : validateCollection name ≠ .ok ())
    (c : Connection) :
    ∃ e, (Action.migrate name).on c = (.error e, c) := by
  cases hValid : validateCollection name with
  | ok _ => exact absurd hValid hName
  | error e =>
      refine ⟨e, ?_⟩
      rw [Action.migrate, hValid]
      exact Action.on_bind_error (Action.on_lift _ c)

theorem on_openStore_of_error
    {e : StoreError}
    (hFails : (Action.migrate name).on c = (.error e, c')) :
    (openStore name).on c = (.error e, c') :=
  Action.on_bind_error hFails

/- Only valid names open. -/
theorem valid_of_opens
    (hOpens : c.Opens name) : validateCollection name = .ok () := by
  by_contra hName
  rcases on_migrate_invalid hName c with ⟨e, hFails⟩
  rw [Opens, on_openStore_of_error hFails] at hOpens
  cases hOpens

/-
  With the table alone, the collections can be opened that could
  be before, unless their index has its name.
-/
theorem opens_withTable_iff
    (hIndex : db.hasIndex name = false)
    (m : String) :
    (idle (db.withTable name)).Opens m ↔
      (idle db).Opens m ∧
        foldName (indexName m) ≠ foldName name := by
  by_cases hName : validateCollection m = .ok ()
  · have hOwn : ((db.withTable name).hasTable m = true ∨
          (db.withTable name).hasIndex m = false) ↔
        (db.hasTable m = true ∨ db.hasIndex m = false) := by
      rw [Database.hasTable_withTable, Database.hasIndex_withTable]
      constructor
      · rintro ((hFold | hThere) | hFree)
        · rw [Database.hasIndex_of_fold_eq hFold]
          exact .inr hIndex
        · exact .inl hThere
        · exact .inr hFree
      · exact Or.imp_left Or.inr
    have hNone :
        (db.withTable name).hasTable (indexName m) = false ↔
          db.hasTable (indexName m) = false ∧
            foldName (indexName m) ≠ foldName name := by
      rw [Bool.eq_false_iff, Ne, Database.hasTable_withTable,
        not_or, Bool.eq_false_iff, and_comm]
    rw [opens_iff_free hName, opens_iff_free hName, content_idle,
      content_idle, hOwn, hNone, and_assoc, and_assoc]
  · constructor
    · exact fun hOpens => absurd (valid_of_opens hOpens) hName
    · exact fun hOpens => absurd (valid_of_opens hOpens.1) hName

/- What is left of a connection by an opening that fails. -/
theorem on_migrate_error_cases
    {e : StoreError}
    (hFails : (Action.migrate name).on (idle db) =
      (.error e, c')) :
    (¬ db.LeavesTable name ∧ c' = idle db) ∨
      (db.LeavesTable name ∧ c' = idle (db.withTable name)) := by
  by_cases hName : validateCollection name = .ok ()
  · have hOpen := on_openStore_of_error hFails
    rcases openStore_cases (idle db) hName with
      ⟨fault, hTable, hOpen'⟩ | ⟨db', fault, hTable, hIndex, hOpen'⟩ |
        ⟨db', db'', _, _, hOpen'⟩
    · rw [hOpen, Prod.mk.injEq] at hOpen'
      refine .inl ⟨fun hLeaves => ?_, hOpen'.2⟩
      have hTaken := (Database.createTable_error
        (isReserved_of_valid hName) hTable).2
      rw [content_idle, hLeaves.noIndex] at hTaken
      cases hTaken
    · rw [hOpen, Prod.mk.injEq] at hOpen'
      have hRefuses := Database.createIndex_error hIndex
      rcases Database.createTable_cases hTable with
        ⟨hThere, rfl⟩ | ⟨hNoTable, hNoIndex, rfl⟩
      · refine .inl ⟨fun hLeaves => ?_, hOpen'.2⟩
        rw [content_idle, hLeaves.noTable] at hThere
        cases hThere
      · refine .inr ⟨⟨hName, hNoTable, hNoIndex, ?_⟩, hOpen'.2⟩
        rw [Database.hasTable_withTable] at hRefuses
        exact hRefuses.imp_right
          (Or.resolve_left · (foldName_indexName_ne name))
    · rw [hOpen] at hOpen'
      cases hOpen'
  · rcases on_migrate_invalid hName (idle db) with ⟨e', hFails'⟩
    rw [hFails, Prod.mk.injEq] at hFails'
    exact .inl ⟨fun hLeaves => hName hLeaves.valid, hFails'.2⟩

/- Where the database takes only the table, an opening fails. -/
theorem on_migrate_of_leaves (hLeaves : db.LeavesTable name) :
    ∃ e, (Action.migrate name).on (idle db) =
      (.error e, idle (db.withTable name)) := by
  have hTable : db.createTable name = .ok (db.withTable name) := by
    simp [Database.createTable, Database.withTable,
      isReserved_of_valid hLeaves.valid, hLeaves.noTable,
      hLeaves.noIndex]
  have hFirst : (Action.change (·.createTable name)).on (idle db) =
      (.ok (), idle (db.withTable name)) := by
    rw [Action.on_change, content_idle, hTable]
    rfl
  cases hIndex : (db.withTable name).createIndex name with
  | error fault =>
      refine ⟨.execution fault, ?_⟩
      rw [Action.migrate, hLeaves.valid,
        Action.on_bind_ok (Action.on_lift _ _),
        Action.on_bind_ok hFirst, Action.on_change, content_idle,
        hIndex]
  | ok db' =>
      rcases Database.createIndex_spec hIndex with
        ⟨hPlain, hNone, _⟩
      rw [Bool.eq_false_iff, Ne, Database.hasTable_withTable]
        at hNone
      rcases hLeaves.refuses with hKept | hTaken
      · rw [hPlain] at hKept
        cases hKept
      · exact absurd (.inr hTaken) hNone

/-
  With no transaction open, an opening that fails leaves the
  tables and the indexes as they were, except where the database
  takes the table and refuses the index.  There the empty table
  stays, and it is in the way of one name: that of the
  collection whose index would have the name of the table.
-/
theorem failed_opening
    {e : StoreError}
    (hFails : (Action.migrate name).on (idle db) =
      (.error e, c')) :
    (openStore name).on (idle db) = (.error e, c') ∧
    (c'.content.tables = db.tables ∧
        c'.content.indexes = db.indexes ↔
      ¬ db.LeavesTable name) ∧
    (¬ db.LeavesTable name → c' = idle db) ∧
    (db.LeavesTable name → c' = idle (db.withTable name)) ∧
    ∀ m, c'.Opens m ↔ (idle db).Opens m ∧
      ¬ (db.LeavesTable name ∧
        foldName (indexName m) = foldName name) := by
  refine ⟨on_openStore_of_error hFails, ?_⟩
  rcases on_migrate_error_cases hFails with
    ⟨hLeaves, rfl⟩ | ⟨hLeaves, rfl⟩
  · simp [hLeaves]
  · refine ⟨?_, fun hNot => absurd hLeaves hNot, fun _ => rfl, ?_⟩
    · simp [hLeaves, Database.tables_withTable_ne]
    · intro m
      rw [opens_withTable_iff hLeaves.noIndex]
      simp [hLeaves]

/-
  The second name fails on a collection whose name is that of its
  index.  Then the third one fails, whose index has the name of
  the table that stays.
-/
theorem failed_opening_people :
    let first := "people_predicate_value_predicate_value"
    let second := "people_predicate_value"
    (fresh first).Opens "people" ∧
      ∃ e c', (Action.migrate second).on (fresh first) =
          (.error e, c') ∧
        c'.content.hasTable second = true ∧
        ¬ c'.Opens "people" := by
  intro first second
  have hFirst : foldName first = first :=
    foldName_eq_self (by decide)
  have hSecond : foldName second = second :=
    foldName_eq_self (by decide)
  have hThird : foldName "people" = "people" :=
    foldName_eq_self rfl
  have hIndexSecond : indexName second = first := rfl
  have hIndexThird : indexName "people" = second := rfl
  have hOpens : (fresh first).Opens "people" := by
    rw [opens_iff_free (valid_of_lower (by decide) hThird
      (by decide)), hIndexThird]
    refine ⟨.inr ?_, ?_, ?_⟩
    · simp [fresh, Database.hasIndex, hThird, indexName, first]
    · rw [isReserved, hSecond]
      decide
    · simp [fresh, Database.hasTable, Database.rows?, hSecond,
        first, second]
  have hLeaves : Database.LeavesTable
      ⟨[(first, [])], [(indexName first, first)]⟩ second := by
    constructor
    · exact valid_of_lower (by decide) hSecond (by decide)
    · simp [Database.hasTable, Database.rows?, hSecond, first,
        second]
    · simp [Database.hasIndex, hSecond, indexName, first, second]
    · simp [Database.hasTable, Database.rows?, hIndexSecond,
        hFirst]
  rcases on_migrate_of_leaves hLeaves with ⟨e, hFails⟩
  rcases failed_opening hFails with ⟨_, _, _, _, hLater⟩
  refine ⟨hOpens, e, _, hFails, ?_, ?_⟩
  · exact (Database.hasTable_withTable second).mpr (.inl rfl)
  · rw [hLater]
    exact fun hOpens' => hOpens'.2 ⟨hLeaves, rfl⟩

end Connection

end Factbase
