import Factbase.Store.Store

/-
  What actions answer, and the connection that they leave.

  Each action of a connection has an equation here, so that the
  theory of stores never opens the monad that actions run in.

  Main declarations:
    * `Action.on_bind`
    * `Action.on_change`
    * `Action.on_batch_ok`
    * `Action.on_batch_error`
    * `Action.on_batch_open`
-/

------------------------------------------------------------
-- Content of a Database
------------------------------------------------------------

namespace Factbase

/- A name is folded letter by letter. -/
theorem toList_foldName (name : String) :
    (foldName name).toList = name.toList.map Char.toLower :=
  String.toList_map

/- A name in lower case is its own form without regard to case. -/
theorem foldName_eq_self
    {name : String}
    (hLower : name.toList.map Char.toLower = name.toList) :
    foldName name = name := by
  rw [← String.toList_inj, toList_foldName, hLower]

namespace Database

variable {db : Database}
variable {name : String}
variable {rows : List Row}

/- The rows of a table are found if the table is there. -/
theorem rows_eq_ok_iff :
    db.rows name = .ok rows ↔ db.rows? name = some rows := by
  cases hLookup : db.rows? name <;> simp [Database.rows, hLookup]

/- A table is there exactly if it has rows to be found. -/
theorem hasTable_iff :
    db.hasTable name = true ↔ ∃ rows, db.rows name = .ok rows := by
  simp only [Database.hasTable, Option.isSome_iff_exists,
    rows_eq_ok_iff]

/- A table that is there has the rows that it is given. -/
theorem rows_setRows
    {old : List Row}
    (hTable : db.rows name = .ok old)
    (new : List Row) :
    (db.setRows name new).rows name = .ok new := by
  rw [rows_eq_ok_iff] at hTable ⊢
  simp only [Database.rows?, Database.setRows] at hTable ⊢
  generalize db.tables = tables at hTable ⊢
  induction tables with
  | nil => simp at hTable
  | cons table tables ih =>
      rcases table with ⟨key, own⟩
      by_cases hKey : foldName name = key
      · subst key
        simp
      · have hOther : (foldName name == key) = false := by
          simpa using hKey
        simp only [List.lookup_cons, hOther] at hTable
        simp only [List.map_cons, List.lookup_cons, hOther]
        exact ih hTable

end Database

------------------------------------------------------------
-- Content of a Connection
------------------------------------------------------------

namespace Connection

variable (c : Connection)
variable (db : Database)

@[simp] theorem content_idle : (idle db).content = db := rfl

@[simp] theorem content_opened :
    c.opened.content = c.content := rfl

/- A write stays within a transaction or outside of one. -/
@[simp] theorem inTransaction_write :
    (c.write db).inTransaction = c.inTransaction := by
  by_cases hOpen : c.inTransaction <;> simp [write, hOpen]

/- What is written is what is seen from then on. -/
@[simp] theorem content_write : (c.write db).content = db := by
  by_cases hOpen : c.inTransaction
  · simp [write, hOpen, content]
  · simp [write, hOpen, content,
      c.pending_of_idle (by simpa using hOpen)]

/- What a transaction changes is not committed yet. -/
theorem committed_write_open
    {c : Connection}
    (hOpen : c.inTransaction = true) :
    (c.write db).committed = c.committed := by
  simp [write, hOpen]

/- Without a transaction, all there is is committed. -/
theorem idle_committed
    {c : Connection}
    (hIdle : c.inTransaction = false) :
    idle c.committed = c := by
  ext1
  · rfl
  · exact hIdle.symm
  · exact (c.pending_of_idle hIdle).symm

/- Outside of a transaction, all that is seen is stored. -/
theorem idle_content
    {c : Connection}
    (hIdle : c.inTransaction = false) :
    idle c.content = c := by
  rw [content, c.pending_of_idle hIdle]
  exact idle_committed hIdle

/- A connection on which one empty collection is open. -/
def fresh (name : String) : Connection :=
  .idle ⟨[(name, [])], [(indexName name, name)]⟩

/- A collection that was just made has no rows. -/
theorem rows_fresh
    {name : String}
    (hFold : foldName name = name) :
    (fresh name).content.rows name = .ok [] := by
  simp [fresh, Database.rows, Database.rows?, hFold]

/- It has a table, though. -/
theorem hasTable_fresh
    {name : String}
    (hFold : foldName name = name) :
    (fresh name).content.hasTable name = true :=
  Database.hasTable_iff.mpr ⟨[], rows_fresh hFold⟩

end Connection

end Factbase

------------------------------------------------------------
-- Sequences of Actions
------------------------------------------------------------

namespace Factbase

namespace Action

variable {α β : Type}

@[simp] theorem on_pure (x : α) (c : Connection) :
    (pure x : Action α).on c = (.ok x, c) := rfl

@[simp] theorem on_throw (e : StoreError) (c : Connection) :
    (throw e : Action α).on c = (.error e, c) := rfl

/- An outcome leaves the connection as it is. -/
@[simp] theorem on_lift
    (result : Except StoreError α)
    (c : Connection) :
    (lift result).on c = (result, c) := by
  cases result <;> rfl

/- An outcome of the engine becomes one of the store. -/
@[simp] theorem on_execute
    (result : Except EngineFault α)
    (c : Connection) :
    (execute result).on c =
      (result.mapError .execution, c) :=
  on_lift _ c

@[simp] theorem on_get (c : Connection) :
    (get : Action Connection).on c = (.ok c, c) := rfl

@[simp] theorem on_modify
    (f : Connection → Connection)
    (c : Connection) :
    (modify f : Action Unit).on c = (.ok (), f c) := rfl

@[simp] theorem on_content (c : Connection) :
    content.on c = (.ok c.content, c) := rfl

/- An action after another one, by what the first answers. -/
theorem on_bind
    (action : Action α)
    (next : α → Action β)
    (c : Connection) :
    (action >>= next).on c =
      match action.on c with
      | (.ok x, c') => (next x).on c'
      | (.error e, c') => (.error e, c') := by
  have hBind :
      (action >>= next).on c =
        ExceptT.bindCont next (action.on c).1 (action.on c).2 :=
    rfl
  rw [hBind]
  rcases action.on c with ⟨_ | x, c'⟩ <;> rfl

/- After a success, the next action goes on from there. -/
theorem on_bind_ok
    {action : Action α}
    {next : α → Action β}
    {c c' : Connection}
    {x : α}
    (hFirst : action.on c = (.ok x, c')) :
    (action >>= next).on c = (next x).on c' := by
  rw [on_bind, hFirst]

/- After a failure, there is no next action. -/
theorem on_bind_error
    {action : Action α}
    {next : α → Action β}
    {c c' : Connection}
    {e : StoreError}
    (hFirst : action.on c = (.error e, c')) :
    (action >>= next).on c = (.error e, c') := by
  rw [on_bind, hFirst]

/- An action with a remedy for its errors. -/
theorem on_tryCatch
    (action : Action α)
    (remedy : StoreError → Action α)
    (c : Connection) :
    (tryCatch action remedy).on c =
      match action.on c with
      | (.ok x, c') => (.ok x, c')
      | (.error e, c') => (remedy e).on c' := by
  simp only [Action.on, tryCatch, tryCatchThe,
    MonadExceptOf.tryCatch, ExceptT.tryCatch, ExceptT.run,
    ExceptT.mk, bind, StateT.bind]
  rcases action c with ⟨_ | x, c'⟩ <;> rfl

/- A change of the content, kept only if it can be made. -/
theorem on_change
    (f : Database → Except EngineFault Database)
    (c : Connection) :
    (change f).on c =
      match f c.content with
      | .ok db => (.ok (), c.write db)
      | .error fault => (.error (.execution fault), c) := by
  rw [change, on_bind_ok (on_content c), on_bind, on_execute]
  cases f c.content <;> rfl

------------------------------------------------------------
-- Transactions
------------------------------------------------------------

/- A transaction begins where there is none. -/
theorem on_begin_idle
    {c : Connection}
    (hIdle : c.inTransaction = false) :
    begin.on c = (.ok (), c.opened) := by
  rw [begin, on_bind_ok (on_get c), if_neg (by simp [hIdle]),
    on_modify]

/- There are no transactions within transactions. -/
theorem on_begin_open
    {c : Connection}
    (hOpen : c.inTransaction = true) :
    begin.on c = (.error (.execution .nestedTransaction), c) := by
  rw [begin, on_bind_ok (on_get c), if_pos hOpen, on_execute]
  rfl

/- A commit stores what the transaction has seen. -/
theorem on_commit_open
    {c : Connection}
    (hOpen : c.inTransaction = true) :
    commit.on c = (.ok (), .idle c.content) := by
  rw [commit, on_bind_ok (on_get c), if_pos hOpen, on_modify]

/- Without a transaction there is nothing to commit. -/
theorem on_commit_idle
    {c : Connection}
    (hIdle : c.inTransaction = false) :
    commit.on c = (.error (.execution .nothingToCommit), c) := by
  rw [commit, on_bind_ok (on_get c), if_neg (by simp [hIdle]),
    on_execute]
  rfl

/- A rollback goes back to what was stored. -/
theorem on_rollBack_open
    {c : Connection}
    (hOpen : c.inTransaction = true) :
    rollBack.on c = (.ok (), .idle c.committed) := by
  rw [rollBack, on_bind_ok (on_get c), if_pos hOpen, on_modify]

/- Without a transaction there is nothing to go back to. -/
theorem on_rollBack_idle
    {c : Connection}
    (hIdle : c.inTransaction = false) :
    rollBack.on c =
      (.error (.execution .nothingToRollBack), c) := by
  rw [rollBack, on_bind_ok (on_get c), if_neg (by simp [hIdle]),
    on_execute]
  rfl

/- No batch starts inside a transaction. -/
theorem on_batch_open
    {c : Connection}
    (hOpen : c.inTransaction = true)
    (action : Action Unit) :
    (batch action).on c =
      (.error (.execution .nestedTransaction), c) := by
  rw [batch, on_bind_error (on_begin_open hOpen)]

/- A batch that succeeds commits what it leaves. -/
theorem on_batch_ok
    {c c' : Connection}
    {action : Action Unit}
    (hIdle : c.inTransaction = false)
    (hAction : action.on c.opened = (.ok (), c'))
    (hOpen : c'.inTransaction = true) :
    (batch action).on c = (.ok (), .idle c'.content) := by
  rw [batch, on_bind_ok (on_begin_idle hIdle)]
  refine (on_bind_ok (x := ()) ?_).trans (on_commit_open hOpen)
  rw [on_tryCatch, hAction]

/- A batch that fails leaves everything as it was. -/
theorem on_batch_error
    {c c' : Connection}
    {action : Action Unit}
    {e : StoreError}
    (hIdle : c.inTransaction = false)
    (hAction : action.on c.opened = (.error e, c'))
    (hOpen : c'.inTransaction = true)
    (hCommitted : c'.committed = c.committed) :
    (batch action).on c = (.error e, c) := by
  rw [batch, on_bind_ok (on_begin_idle hIdle)]
  apply on_bind_error
  rw [on_tryCatch, hAction]
  simp only
  rw [on_bind_ok (on_rollBack_open hOpen), on_throw,
    hCommitted, Connection.idle_committed hIdle]

/- A collection with a valid name gets a table and an index. -/
theorem on_migrate
    {c : Connection}
    {collection : String}
    {db db' : Database}
    (hName : validateCollection collection = .ok ())
    (hTable : c.content.createTable collection = .ok db)
    (hIndex : db.createIndex collection = .ok db') :
    (migrate collection).on c =
      (.ok (), (c.write db).write db') := by
  have hFirst :
      (change (·.createTable collection)).on c =
        (.ok (), c.write db) := by
    rw [on_change, hTable]
  rw [migrate, hName, on_bind_ok (on_lift _ c),
    on_bind_ok hFirst, on_change, Connection.content_write,
    hIndex]

end Action

end Factbase
