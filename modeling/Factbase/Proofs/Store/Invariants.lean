import Factbase.Proofs.Store.Actions
import Factbase.Proofs.Store.Commands

/-
  Properties of rows that stores keep.

  What is true of a table without rows, and stays true when a
  triple is added or rows are removed, is true of every table
  after any action of a store, in a transaction or not.

  Key definitions include:
    * `Row.Kept`
    * `Database.All`
    * `Connection.All`
    * `Action.Keeps`

  Main declarations:
    * `Action.keeps_batch`
    * `Store.keeps_command`
-/

namespace Factbase

/-
  A property of rows that is kept by adding triples that fit it
  and by removing rows.
-/
structure Row.Kept
    (holds : List Row → Prop)
    (fits : Triple → Prop) : Prop where
  nil : holds []
  upsert :
    ∀ rows t, holds rows → fits t → holds (Row.upsert t.row rows)
  delete :
    ∀ rows doomed, holds rows → holds (Row.delete doomed rows)

------------------------------------------------------------
-- Content
------------------------------------------------------------

namespace Database

/- The rows of every table have a property. -/
def All
    (holds : List Row → Prop)
    (db : Database) : Prop :=
  ∀ table ∈ db.tables, holds table.2

variable {holds : List Row → Prop}
variable {db db' : Database}
variable {name : String}

/- A database without tables has no rows to say anything of. -/
theorem all_empty : Database.empty.All holds := by
  simp [All, Database.empty]

/- What holds of all tables holds of the rows that are found. -/
theorem All.rows
    (hAll : db.All holds)
    {rows : List Row}
    (hRows : db.rows name = .ok rows) : holds rows := by
  rw [rows_eq_ok_iff, Database.rows?, List.lookup_eq_some_iff]
    at hRows
  rcases hRows with ⟨before, after, hTables, _⟩
  apply hAll (foldName name, rows)
  rw [hTables]
  simp

/- Rows with the property may take the place of others. -/
theorem All.setRows
    (hAll : db.All holds)
    {rows : List Row}
    (hRows : holds rows)
    (name : String) :
    (db.setRows name rows).All holds := by
  intro table hTable
  rcases List.mem_map.mp hTable with ⟨old, hOld, rfl⟩
  by_cases hKey : old.1 = foldName name
  · simpa [hKey] using hRows
  · simpa [hKey] using hAll old hOld

/- A change that keeps the property of rows keeps it of all. -/
theorem All.alter
    (hAll : db.All holds)
    {change : List Row → List Row}
    (hChange : ∀ rows, holds rows → holds (change rows))
    (hAlter : db.alter name change = .ok db') :
    db'.All holds := by
  rw [Database.alter] at hAlter
  cases hRows : db.rows name with
  | error fault => simp [hRows, Except.map] at hAlter
  | ok rows =>
      simp only [hRows, Except.map, Except.ok.injEq] at hAlter
      rw [← hAlter]
      exact hAll.setRows (hChange rows (hAll.rows hRows)) name

/- A new table is empty, and a table that is there stays. -/
theorem All.createTable
    (hNil : holds [])
    (hAll : db.All holds)
    (hCreate : db.createTable name = .ok db') :
    db'.All holds := by
  rw [Database.createTable] at hCreate
  split_ifs at hCreate
  · cases hCreate
    exact hAll
  · cases hCreate
    intro table hTable
    rcases List.mem_cons.mp hTable with rfl | hOld
    · exact hNil
    · exact hAll table hOld

/- Indexes hold no rows. -/
theorem All.createIndex
    (hAll : db.All holds)
    (hCreate : db.createIndex name = .ok db') :
    db'.All holds := by
  simp only [Database.createIndex] at hCreate
  split_ifs at hCreate <;> cases hCreate <;> exact hAll

/- Without a table, the others still have the property. -/
theorem All.dropTable
    (hAll : db.All holds)
    (hDrop : db.dropTable name = .ok db') :
    db'.All holds := by
  rw [Database.dropTable] at hDrop
  split_ifs at hDrop
  cases hDrop
  intro table hTable
  exact hAll table (List.mem_of_mem_filter hTable)

end Database

namespace Connection

/- The property holds of what was committed and of what pends. -/
structure All
    (holds : List Row → Prop)
    (c : Connection) : Prop where
  committed : c.committed.All holds
  pending : ∀ db ∈ c.pending, db.All holds

variable {holds : List Row → Prop}
variable {c : Connection}

theorem all_idle
    {db : Database}
    (hAll : db.All holds) :
    (idle db).All holds :=
  ⟨hAll, by simp [idle]⟩

/- What a connection sees is its pending or its stored content. -/
theorem All.content (hAll : c.All holds) :
    c.content.All holds := by
  rw [Connection.content]
  cases hPending : c.pending with
  | none => exact hAll.committed
  | some db => exact hAll.pending db hPending

/- A transaction starts with the content that is stored. -/
theorem All.opened (hAll : c.All holds) : c.opened.All holds :=
  ⟨hAll.committed, hAll.pending⟩

/- A new content that has the property may be written. -/
theorem All.write
    (hAll : c.All holds)
    {db : Database}
    (hNew : db.All holds) :
    (c.write db).All holds := by
  rw [Connection.write]
  split_ifs
  · exact ⟨hAll.committed, by simpa using hNew⟩
  · exact ⟨hNew, hAll.pending⟩

end Connection

------------------------------------------------------------
-- Actions
------------------------------------------------------------

namespace Action

variable {α β : Type}
variable {holds : List Row → Prop}

/- An action leaves the property true wherever it was true. -/
def Keeps
    (holds : List Row → Prop)
    (action : Action α) : Prop :=
  ∀ c : Connection, c.All holds → (action.on c).2.All holds

theorem keeps_pure (x : α) :
    Keeps holds (pure x : Action α) :=
  fun _ hAll => hAll

theorem keeps_throw (e : StoreError) :
    Keeps holds (throw e : Action α) :=
  fun _ hAll => hAll

/- What both steps keep, they keep one after the other. -/
theorem keeps_bind
    {action : Action α}
    {next : α → Action β}
    (hAction : Keeps holds action)
    (hNext : ∀ x, Keeps holds (next x)) :
    Keeps holds (action >>= next) := by
  intro c hAll
  have hFirst := hAction c hAll
  rw [on_bind]
  rcases hAnswer : action.on c with ⟨_ | x, c'⟩
  · simpa [hAnswer] using hFirst
  · rw [hAnswer] at hFirst
    exact hNext x c' hFirst

/- What follows a result only has to keep what it yields. -/
theorem keeps_lift_bind
    {result : Except StoreError α}
    {next : α → Action β}
    (hNext : ∀ x, result = .ok x → Keeps holds (next x)) :
    Keeps holds (lift result >>= next) := by
  cases result with
  | error e => exact keeps_throw e
  | ok x => exact hNext x rfl

/- A remedy starts from where the action has failed. -/
theorem keeps_tryCatch
    {action : Action α}
    {remedy : StoreError → Action α}
    (hAction : Keeps holds action)
    (hRemedy : ∀ e, Keeps holds (remedy e)) :
    Keeps holds (tryCatch action remedy) := by
  intro c hAll
  have hFirst := hAction c hAll
  rw [on_tryCatch]
  rcases hAnswer : action.on c with ⟨e | _, c'⟩
  · rw [hAnswer] at hFirst
    exact hRemedy e c' hFirst
  · simpa [hAnswer] using hFirst

/- A change keeps a property if its outcome has it. -/
theorem keeps_change
    {f : Database → Except EngineFault Database}
    (hChange :
      ∀ db db', db.All holds → f db = .ok db' → db'.All holds) :
    Keeps holds (change f) := by
  intro c hAll
  rw [on_change]
  cases hAnswer : f c.content with
  | error fault => exact hAll
  | ok db => exact hAll.write (hChange _ db hAll.content hAnswer)

theorem keeps_begin : Keeps holds begin := by
  intro c hAll
  cases hState : c.inTransaction with
  | false =>
      rw [on_begin_idle hState]
      exact hAll.opened
  | true =>
      rw [on_begin_open hState]
      exact hAll

/- What is stored then is what the transaction has seen. -/
theorem keeps_commit : Keeps holds commit := by
  intro c hAll
  cases hState : c.inTransaction with
  | false =>
      rw [on_commit_idle hState]
      exact hAll
  | true =>
      rw [on_commit_open hState]
      exact Connection.all_idle hAll.content

/- What is seen then is what was stored before. -/
theorem keeps_rollBack : Keeps holds rollBack := by
  intro c hAll
  cases hState : c.inTransaction with
  | false =>
      rw [on_rollBack_idle hState]
      exact hAll
  | true =>
      rw [on_rollBack_open hState]
      exact Connection.all_idle hAll.committed

/- A batch keeps what its action keeps, however it ends. -/
theorem keeps_batch
    {action : Action Unit}
    (hAction : Keeps holds action) :
    Keeps holds (batch action) := by
  apply keeps_bind keeps_begin
  intro _
  refine keeps_bind (keeps_tryCatch hAction ?_)
    fun _ => keeps_commit
  intro e
  exact keeps_bind keeps_rollBack fun _ => keeps_throw e

/- Making a collection keeps what holds of no rows. -/
theorem keeps_migrate
    (hNil : holds [])
    (collection : String) :
    Keeps holds (migrate collection) := by
  apply keeps_lift_bind
  intro _ _
  apply keeps_bind
  · exact keeps_change fun _ _ hAll hCreate =>
      hAll.createTable hNil hCreate
  · intro _
    exact keeps_change fun _ _ hAll hCreate =>
      hAll.createIndex hCreate

theorem keeps_dropTable (collection : String) :
    Keeps holds (dropTable collection) :=
  keeps_change fun _ _ hAll hDrop => hAll.dropTable hDrop

end Action

------------------------------------------------------------
-- Stores
------------------------------------------------------------

namespace Store

open Factbase.Action

variable {holds : List Row → Prop}
variable {fits : Triple → Prop}
variable (s : Store)

/- A store keeps what its change of rows keeps. -/
theorem keeps_alter
    {change : List Row → List Row}
    (hChange : ∀ rows, holds rows → holds (change rows)) :
    Keeps holds (s.alter change) :=
  keeps_change fun _ _ hAll hAlter => hAll.alter hChange hAlter

theorem keeps_ensure : Keeps holds s.ensure := by
  intro c hAll
  rw [Store.ensure, on_bind, on_rows]
  cases c.content.rows s.collection <;> exact hAll

section Commands

variable (hKept : Row.Kept holds fits)
include hKept

/- A triple that fits may be inserted. -/
theorem keeps_insert
    {t : Triple}
    (hFits : fits t) :
    Keeps holds (s.insert t.row) :=
  s.keeps_alter fun rows hHolds =>
    hKept.upsert rows t hHolds hFits

/- Rows may always be deleted. -/
theorem keeps_delete (doomed : Row → Bool) :
    Keeps holds (s.alter (Row.delete doomed)) :=
  s.keeps_alter fun rows hHolds => hKept.delete rows doomed hHolds

variable
    (hFits : ∀ subject predicate d t,
      Triple.encoding subject predicate d = .ok t → fits t)
include hFits

/- A value is only set where it has a text, and that fits. -/
theorem keeps_set
    (subject predicate : String)
    (d : Datum) :
    Keeps holds (s.set subject predicate d) :=
  keeps_lift_bind fun t hEncoding =>
    s.keeps_insert hKept (hFits _ _ d t hEncoding)

/- The induction is on the values still to be set. -/
theorem keeps_setEach
    (subject predicate : String)
    (ds : List Datum) :
    Keeps holds (s.setEach subject predicate ds) := by
  induction ds with
  | nil => exact keeps_pure ()
  | cons d ds ih =>
      exact keeps_bind
        (s.keeps_set hKept hFits subject predicate d) fun _ => ih

/- The induction is on the properties still to be set. -/
theorem keeps_setEachProperty
    (subject : String)
    (properties : List (String × List Datum)) :
    Keeps holds (s.setEachProperty subject properties) := by
  induction properties with
  | nil => exact keeps_pure ()
  | cons property properties ih =>
      exact keeps_bind
        (s.keeps_setEach hKept hFits subject property.1 property.2)
        fun _ => ih

/- Every command keeps a property that encodings fit. -/
theorem keeps_command (command : Command) :
    Keeps holds (command.action s) := by
  cases command with
  | set subject predicate d =>
      exact s.keeps_set hKept hFits subject predicate d
  | setMany subject predicate ds =>
      rw [Command.action, Store.setMany]
      split_ifs
      · exact keeps_pure ()
      · exact keeps_batch
          (keeps_bind s.keeps_ensure fun _ =>
            s.keeps_setEach hKept hFits subject predicate ds)
  | setProperties subject properties =>
      exact keeps_batch
        (keeps_bind s.keeps_ensure fun _ =>
          s.keeps_setEachProperty hKept hFits subject properties)
  | deleteValue subject predicate d =>
      exact keeps_lift_bind fun t _ =>
        s.keeps_delete hKept fun r => r = t.row
  | deletePredicate subject predicate =>
      exact s.keeps_delete hKept _
  | deleteSubject subject => exact s.keeps_delete hKept _

end Commands

end Store

end Factbase
