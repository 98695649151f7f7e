import Factbase.Proofs.Query.Groups

/-
  What a store can see and change of a connection.

  Outside a transaction, whatever is asked of a store is answered
  by the rows of its collection alone, and changes these alone.
  The names of collections are compared without regard to case,
  so two names may mean one collection.

  Key definitions include:
    * `Use`
    * `Use.action`
    * `Connection.alterAll`

  Main declarations:
    * `Connection.rows?_alterAll_of_ne`
    * `Command.exists_changes`
    * `Use.exists_changes`
    * `Use.on_congr`
    * `Action.tables_migrate`
-/

namespace Factbase

------------------------------------------------------------
-- Rows of Other Collections
------------------------------------------------------------

namespace Database

variable {db db' : Database}
variable {name other : String}
variable {rows : List Row}

/- The names of one collection lead to the same rows. -/
theorem rows?_of_fold_eq
    (hFold : foldName name = foldName other) :
    db.rows? name = db.rows? other := by
  rw [Database.rows?, Database.rows?, hFold]

/- The rows of one table are not those of another. -/
theorem rows?_setRows_of_ne
    (hOther : foldName other ≠ foldName name)
    (rows : List Row) :
    (db.setRows name rows).rows? other = db.rows? other := by
  rw [Database.rows?, Database.rows?, Database.setRows]
  simp only
  induction db.tables with
  | nil => rfl
  | cons table tables ih =>
      rcases table with ⟨key, own⟩
      rw [List.map_cons, List.lookup_cons, List.lookup_cons, ih]
      by_cases hKey : foldName other = key
      · rw [if_neg (hKey ▸ hOther)]
      · rw [beq_eq_false_iff_ne.mpr hKey]

/- A statement is run on the rows of its collection. -/
theorem prepare_congr
    (hFold : foldName name = foldName other)
    (hRows : db.rows name = .ok rows)
    (hRows' : db'.rows other = .ok rows)
    (t : Template) :
    db.prepare name t = db'.prepare other t := by
  simp only [Database.prepare, hFold, hRows, hRows']

end Database

namespace Connection

variable {c : Connection}
variable {collection other : String}
variable {rows : List Row}

/- The connection with the rows of a collection changed in turn. -/
def alterAll
    (c : Connection)
    (collection : String)
    (changes : List (List Row → List Row)) : Connection :=
  changes.foldl (fun c change => c.alter collection change) c

/- Storing triples is a run of changes, one for each. -/
theorem store_eq_alterAll (ts : List Triple) :
    c.store collection ts =
      c.alterAll collection
        (ts.map fun t => Row.upsert t.row) := by
  rw [store, alterAll, List.foldl_map]

@[simp] theorem inTransaction_alterAll
    (changes : List (List Row → List Row)) :
    (c.alterAll collection changes).inTransaction =
      c.inTransaction := by
  induction changes generalizing c with
  | nil => rfl
  | cons change changes ih => exact ih.trans (by simp)

theorem rows_alterAll
    (hRows : c.content.rows collection = .ok rows)
    (changes : List (List Row → List Row)) :
    (c.alterAll collection changes).content.rows collection =
      .ok (changes.foldl (fun rows change => change rows) rows) := by
  induction changes generalizing c rows with
  | nil => exact hRows
  | cons change changes ih => exact ih (rows_alter hRows change)

/- A change of one collection is not seen in another. -/
theorem rows?_alter_of_ne
    (hOther : foldName other ≠ foldName collection)
    (change : List Row → List Row) :
    (c.alter collection change).content.rows? other =
      c.content.rows? other := by
  rw [alter]
  cases c.content.rows collection with
  | error fault => rfl
  | ok rows =>
      rw [content_write]
      exact Database.rows?_setRows_of_ne hOther _

/- Changes of one collection leave the others as they are. -/
theorem rows?_alterAll_of_ne
    (hOther : foldName other ≠ foldName collection)
    (changes : List (List Row → List Row)) :
    (c.alterAll collection changes).content.rows? other =
      c.content.rows? other := by
  induction changes generalizing c with
  | nil => rfl
  | cons change changes ih =>
      exact ih.trans (rows?_alter_of_ne hOther change)

end Connection

------------------------------------------------------------
-- Uses of a Store
------------------------------------------------------------

/- What is asked of a store: a change, or a read. -/
inductive Use where
  | perform (command : Command)
  | get (subject predicate : String)
  | list (q : Query)
  | any (q : Query)
  | group (q : Query)

/- What a store says to it. -/
inductive Reply where
  | done
  | triple (t : Option Triple)
  | triples (ts : List Triple)
  | found (b : Bool)
  | groups (g : Grouping)

/- What a store does when it is used. -/
def Use.action (s : Store) : Use → Action Reply
  | .perform command => do
      command.action s
      pure .done
  | .get subject predicate => do
      pure (.triple (← s.get? subject predicate))
  | .list q => do
      pure (.triples (← s.list q))
  | .any q => do
      pure (.found (← s.any q))
  | .group q => do
      pure (.groups (← s.group q))

/- An answer in other words. -/
theorem Action.on_bind_pure
    {α β : Type}
    (action : Action α)
    (f : α → β)
    (c : Connection) :
    (action >>= fun x => pure (f x)).on c =
      ((action.on c).1.map f, (action.on c).2) := by
  rw [on_bind]
  rcases action.on c with ⟨_ | x, c'⟩ <;> rfl

------------------------------------------------------------
-- Changes
------------------------------------------------------------

/- Writes that are all kept or none are changes in turn. -/
theorem Connection.exists_storeAll_eq
    (collection : String)
    (writing : List Triple × Except StoreError Unit) :
    ∃ answer changes, ∀ c : Connection,
      c.storeAll collection writing =
        (answer, c.alterAll collection changes) := by
  rcases writing with ⟨ts, e | _⟩
  · exact ⟨.error e, [], fun c => rfl⟩
  · refine ⟨.ok (), ts.map fun t => Row.upsert t.row, fun c => ?_⟩
    rw [← store_eq_alterAll]
    rfl

/-
  Outside a transaction a command always has the same answer and
  makes the same changes, all of them to its own collection.
-/
theorem Command.exists_changes
    (s : Store)
    (command : Command) :
    ∃ answer changes, ∀ (c : Connection) rows,
      c.inTransaction = false →
      c.content.rows s.collection = .ok rows →
        (command.action s).on c =
          (answer, c.alterAll s.collection changes) := by
  cases command with
  | set subject predicate d =>
      cases hCode : encode d with
      | error e =>
          refine ⟨.error e, [], fun c rows _ hRows => ?_⟩
          rw [action, Store.on_set hRows, hCode]
          rfl
      | ok v =>
          let t : Triple := ⟨subject, predicate, v⟩
          refine ⟨.ok (), [Row.upsert t.row],
            fun c rows _ hRows => ?_⟩
          rw [action, Store.on_set hRows, hCode]
          rfl
  | setMany subject predicate ds =>
      rcases Connection.exists_storeAll_eq s.collection
        (written subject (ds.map fun d => (predicate, d))) with
        ⟨answer, changes, hEach⟩
      refine ⟨answer, changes, fun c rows hIdle hRows => ?_⟩
      rw [action, Store.on_setMany hIdle hRows, hEach]
  | setProperties subject properties =>
      rcases Connection.exists_storeAll_eq s.collection
        (written subject (pairsOf properties)) with
        ⟨answer, changes, hEach⟩
      refine ⟨answer, changes, fun c rows hIdle hRows => ?_⟩
      rw [action, Store.on_setProperties hIdle hRows, hEach]
  | deleteValue subject predicate d =>
      cases hCode : encode d with
      | error e =>
          refine ⟨.error e, [], fun c rows _ hRows => ?_⟩
          rw [action, Store.on_deleteValue hRows, hCode]
          rfl
      | ok v =>
          let t : Triple := ⟨subject, predicate, v⟩
          refine ⟨.ok (), [Row.delete fun r => r = t.row],
            fun c rows _ hRows => ?_⟩
          rw [action, Store.on_deleteValue hRows, hCode]
          rfl
  | deletePredicate subject predicate =>
      exact ⟨.ok (), [_], fun c rows _ hRows =>
        Store.on_alter hRows _⟩
  | deleteSubject subject =>
      exact ⟨.ok (), [_], fun c rows _ hRows =>
        Store.on_alter hRows _⟩

------------------------------------------------------------
-- Reads
------------------------------------------------------------

namespace Store

variable {s s' : Store}
variable {c d : Connection}
variable {rows : List Row}

/- A value is read from the rows of the collection. -/
theorem on_get
    (hRows : c.content.rows s.collection = .ok rows)
    (subject predicate : String) :
    (s.get? subject predicate).on c =
      (((Row.least? (rows.filter fun r =>
        r.subject = subject && r.predicate = predicate)).mapM
          Row.read).mapError .execution, c) := by
  have hRead : s.rows.on c = (.ok rows, c) := by
    rw [on_rows, hRows]
    rfl
  rw [Store.get?, Action.on_bind_ok hRead, Action.on_execute]

section Agreement

variable (hFold : foldName s.collection = foldName s'.collection)
variable (hRows : c.content.rows s.collection = .ok rows)
variable (hRows' : d.content.rows s'.collection = .ok rows)
include hFold hRows hRows'

/- Stores with the same rows list the same. -/
theorem list_eq_of_rows (q : Query) :
    ((s.list q).on c).1 = ((s'.list q).on d).1 := by
  rw [on_list, on_list,
    Database.prepare_congr hFold hRows hRows']

/- What is asked about a collection depends on its rows. -/
theorem any_eq_of_rows (q : Query) :
    ((s.any q).on c).1 = ((s'.any q).on d).1 := by
  rw [on_any, on_any,
    Database.prepare_congr hFold hRows hRows']

end Agreement

theorem on_list_snd (q : Query) : ((s.list q).on c).2 = c := by
  rw [on_list]

/- Groups are made from what is listed. -/
theorem on_group_eq (q : Query) :
    (s.group q).on c =
      (((s.list q).on c).1.bind grouped, c) := by
  cases hList : (s.list q).on c with
  | mk answer c' =>
      have hSame : c' = c := by
        rw [← on_list_snd (s := s) (c := c) q, hList]
      subst hSame
      cases answer with
      | ok us => exact on_group hList
      | error e => exact on_group_of_error hList

end Store

------------------------------------------------------------
-- Answers and Changes of a Use
------------------------------------------------------------

namespace Use

/- What a use changes, it changes in its own collection. -/
theorem exists_changes
    (s : Store)
    (u : Use) :
    ∃ changes, ∀ (c : Connection) rows,
      c.inTransaction = false →
      c.content.rows s.collection = .ok rows →
        ((u.action s).on c).2 =
          c.alterAll s.collection changes := by
  cases u with
  | perform command =>
      rcases command.exists_changes s with ⟨answer, changes, hEach⟩
      refine ⟨changes, fun c rows hIdle hRows => ?_⟩
      rw [Use.action, Action.on_bind_pure, hEach c rows hIdle hRows]
  | get subject predicate =>
      refine ⟨[], fun c rows _ hRows => ?_⟩
      rw [Use.action, Action.on_bind_pure, Store.on_get hRows]
      rfl
  | list q =>
      refine ⟨[], fun c rows _ _ => ?_⟩
      rw [Use.action, Action.on_bind_pure, Store.on_list]
      rfl
  | any q =>
      refine ⟨[], fun c rows _ _ => ?_⟩
      rw [Use.action, Action.on_bind_pure, Store.on_any]
      rfl
  | group q =>
      refine ⟨[], fun c rows _ _ => ?_⟩
      rw [Use.action, Action.on_bind_pure, Store.on_group_eq]
      rfl

/- A use is answered by the rows of its collection alone. -/
theorem on_congr
    {s : Store}
    {c d : Connection}
    {rows : List Row}
    (hIdle : c.inTransaction = false)
    (hIdle' : d.inTransaction = false)
    (hRows : c.content.rows s.collection = .ok rows)
    (hRows' : d.content.rows s.collection = .ok rows)
    (u : Use) :
    ((u.action s).on c).1 = ((u.action s).on d).1 := by
  cases u with
  | perform command =>
      rcases command.exists_changes s with ⟨answer, changes, hEach⟩
      rw [Use.action, Action.on_bind_pure, Action.on_bind_pure,
        hEach c rows hIdle hRows, hEach d rows hIdle' hRows']
  | get subject predicate =>
      rw [Use.action, Action.on_bind_pure, Action.on_bind_pure,
        Store.on_get hRows, Store.on_get hRows']
  | list q =>
      rw [Use.action, Action.on_bind_pure, Action.on_bind_pure,
        Store.list_eq_of_rows rfl hRows hRows']
  | any q =>
      rw [Use.action, Action.on_bind_pure, Action.on_bind_pure,
        Store.any_eq_of_rows rfl hRows hRows']
  | group q =>
      rw [Use.action, Action.on_bind_pure, Action.on_bind_pure,
        Store.on_group_eq, Store.on_group_eq,
        Store.list_eq_of_rows rfl hRows hRows']

end Use

------------------------------------------------------------
-- Preparing a Collection Again
------------------------------------------------------------

namespace Database

variable {db db' : Database}
variable {name : String}

/- A table that is there is not made again. -/
theorem createTable_of_hasTable
    (hTable : db.hasTable name = true)
    (hCreate : db.createTable name = .ok db') : db' = db := by
  rw [Database.createTable] at hCreate
  split_ifs at hCreate
  exact (Except.ok.inj hCreate).symm

theorem hasTable_createTable
    (hCreate : db.createTable name = .ok db') :
    db'.hasTable name = true := by
  rw [Database.createTable] at hCreate
  split_ifs at hCreate with _ hTable <;> cases hCreate
  · exact hTable
  · simp [Database.hasTable, Database.rows?]

/- An index holds no rows. -/
theorem tables_createIndex
    (hCreate : db.createIndex name = .ok db') :
    db'.tables = db.tables := by
  simp only [Database.createIndex] at hCreate
  split_ifs at hCreate <;> cases hCreate <;> rfl

theorem rows?_of_tables_eq
    (hTables : db'.tables = db.tables)
    (name : String) : db'.rows? name = db.rows? name := by
  rw [Database.rows?, Database.rows?, hTables]

/- Indexes do not matter for what a statement is run on. -/
theorem prepare_of_tables_eq
    (hTables : db'.tables = db.tables)
    (name : String)
    (t : Template) : db'.prepare name t = db.prepare name t := by
  simp only [Database.prepare, Database.rows,
    rows?_of_tables_eq hTables]

end Database

/- What a change of the content leaves alone is left alone. -/
theorem Action.tables_change
    {f : Database → Except EngineFault Database}
    {c : Connection}
    (hTables : ∀ db, f c.content = .ok db →
      db.tables = c.content.tables) :
    ((Action.change f).on c).2.content.tables =
      c.content.tables := by
  rw [on_change]
  cases hChange : f c.content with
  | error fault => rfl
  | ok db =>
      simp only [Connection.content_write]
      exact hTables db hChange

/- A collection that is there is prepared without a change. -/
theorem Action.tables_migrate
    {c : Connection}
    {name : String}
    (hTable : c.content.hasTable name = true) :
    ((Action.migrate name).on c).2.content.tables =
      c.content.tables := by
  have hFirst : ((change (·.createTable name)).on c).2.content.tables =
      c.content.tables := tables_change fun db hCreate => by
    rw [Database.createTable_of_hasTable hTable hCreate]
  rw [migrate, on_bind, on_lift]
  cases validateCollection name with
  | error e => rfl
  | ok _ =>
      simp only
      rw [on_bind]
      cases hMade : (change (·.createTable name)).on c with
      | mk answer c' =>
          rw [hMade] at hFirst
          cases answer with
          | error e => exact hFirst
          | ok _ =>
              rw [← hFirst]
              exact tables_change fun db hCreate =>
                Database.tables_createIndex hCreate

/- A collection that could be prepared is there. -/
theorem Action.hasTable_migrate
    {c c' : Connection}
    {name : String}
    (hMigrate : (Action.migrate name).on c = (.ok (), c')) :
    c'.content.hasTable name = true := by
  rw [migrate, on_bind, on_lift] at hMigrate
  cases hValid : validateCollection name with
  | error e => simp [hValid] at hMigrate
  | ok _ =>
      simp only [hValid, on_bind, on_change] at hMigrate
      cases hTable : c.content.createTable name with
      | error fault => simp [hTable] at hMigrate
      | ok db =>
          simp only [hTable, Connection.content_write] at hMigrate
          cases hIndex : db.createIndex name with
          | error fault => simp [hIndex] at hMigrate
          | ok db' =>
              simp only [hIndex, Prod.mk.injEq, true_and]
                at hMigrate
              rw [← hMigrate, Connection.content_write,
                Database.hasTable, Database.rows?_of_tables_eq
                  (Database.tables_createIndex hIndex)]
              exact Database.hasTable_createTable hTable

end Factbase
