import Factbase.Proofs.Store.Actions
import Factbase.Proofs.Store.Rows

/-
  What the writes of a store do to a connection.

  A sequence of values is written one by one until a datum has
  no encoding.  `written` says which triples that makes and how
  it ends; the equations of the writes are stated by it.

  Main declarations:
    * `Connection.alter`
    * `Connection.store`
    * `Triple.States`
    * `written`
    * `Store.on_setMany`
    * `Store.on_setProperties`
-/

namespace Factbase

------------------------------------------------------------
-- Changes of a Collection
------------------------------------------------------------

namespace Connection

/- The connection with the rows of a collection changed. -/
def alter
    (c : Connection)
    (collection : String)
    (change : List Row → List Row) : Connection :=
  match c.content.rows collection with
  | .ok rows => c.write (c.content.setRows collection (change rows))
  | .error _ => c

variable {c : Connection}
variable {collection : String}
variable {rows : List Row}

@[simp] theorem inTransaction_alter
    (change : List Row → List Row) :
    (c.alter collection change).inTransaction =
      c.inTransaction := by
  rw [alter]
  cases c.content.rows collection <;> simp

/- The changed rows are seen at once. -/
theorem rows_alter
    (hRows : c.content.rows collection = .ok rows)
    (change : List Row → List Row) :
    (c.alter collection change).content.rows collection =
      .ok (change rows) := by
  simp only [alter, hRows, content_write]
  exact Database.rows_setRows hRows _

/- Within a transaction, a change is not yet stored. -/
theorem committed_alter_open
    (hOpen : c.inTransaction = true)
    (change : List Row → List Row) :
    (c.alter collection change).committed = c.committed := by
  rw [alter]
  cases c.content.rows collection with
  | ok rows => exact committed_write_open _ hOpen
  | error fault => rfl

/- A change is that of the content, in a transaction or not. -/
theorem content_alter_congr
    {d : Connection}
    (hContent : d.content = c.content)
    (change : List Row → List Row) :
    (d.alter collection change).content =
      (c.alter collection change).content := by
  rw [alter, alter, hContent]
  cases c.content.rows collection <;> simp [hContent]

/- The connection with triples added to a collection. -/
def store
    (c : Connection)
    (collection : String)
    (ts : List Triple) : Connection :=
  ts.foldl (fun c t => c.alter collection (Row.upsert t.row)) c

@[simp] theorem store_nil : c.store collection [] = c := rfl

@[simp] theorem store_cons (t : Triple) (ts : List Triple) :
    c.store collection (t :: ts) =
      (c.alter collection (Row.upsert t.row)).store
        collection ts := rfl

/- Triples are stored one after the other. -/
theorem store_append (ts us : List Triple) :
    c.store collection (ts ++ us) =
      (c.store collection ts).store collection us :=
  List.foldl_append

/- Storing triples neither begins nor ends a transaction. -/
@[simp] theorem inTransaction_store (ts : List Triple) :
    (c.store collection ts).inTransaction =
      c.inTransaction := by
  induction ts generalizing c with
  | nil => rfl
  | cons t ts ih => rw [store_cons, ih, inTransaction_alter]

/- Stored triples are all upserted.  The induction is on them. -/
theorem rows_store
    (hRows : c.content.rows collection = .ok rows)
    (ts : List Triple) :
    (c.store collection ts).content.rows collection =
      .ok (Row.upsertAll ts rows) := by
  induction ts generalizing c rows with
  | nil => exact hRows
  | cons t ts ih => exact ih (rows_alter hRows _)

/- Within a transaction, triples are not yet stored for good. -/
theorem committed_store_open
    (hOpen : c.inTransaction = true)
    (ts : List Triple) :
    (c.store collection ts).committed = c.committed := by
  induction ts generalizing c with
  | nil => rfl
  | cons t ts ih =>
      rw [store_cons, ih (by simpa using hOpen),
        committed_alter_open hOpen]

/- What is seen after a write depends on what is seen before. -/
theorem content_store_congr
    {d : Connection}
    (hContent : d.content = c.content)
    (ts : List Triple) :
    (d.store collection ts).content =
      (c.store collection ts).content := by
  induction ts generalizing c d with
  | nil => exact hContent
  | cons t ts ih => exact ih (content_alter_congr hContent _)

/-
  What a transaction of its own adds and commits is what would
  be added without it.
-/
theorem idle_content_store_opened
    (hIdle : c.inTransaction = false)
    (ts : List Triple) :
    idle (c.opened.store collection ts).content =
      c.store collection ts := by
  rw [content_store_congr (c := c) c.content_opened]
  exact idle_content (by simpa using hIdle)

end Connection

namespace Connection

variable {c : Connection}
variable {collection : String}

/-
  The connection after writes of which all are kept if they end
  well, and otherwise none.
-/
def storeAll
    (c : Connection)
    (collection : String) :
    List Triple × Except StoreError Unit →
      Except StoreError Unit × Connection
  | (ts, .ok _) => (.ok (), c.store collection ts)
  | (_, .error e) => (.error e, c)

/- A writing that ends well stores its triples. -/
theorem storeAll_of_ok
    {writing : List Triple × Except StoreError Unit}
    (hEnding : writing.2 = .ok ()) :
    c.storeAll collection writing =
      (.ok (), c.store collection writing.1) := by
  rcases writing with ⟨ts, ending⟩
  cases hEnding
  rfl

/- A writing that fails leaves the connection as it was. -/
theorem storeAll_of_error
    {writing : List Triple × Except StoreError Unit}
    {e : StoreError}
    (hEnding : writing.2 = .error e) :
    c.storeAll collection writing = (.error e, c) := by
  rcases writing with ⟨ts, ending⟩
  cases hEnding
  rfl

end Connection

------------------------------------------------------------
-- Values Written One by One
------------------------------------------------------------

/- A triple states that a subject has a datum. -/
def Triple.States
    (t : Triple)
    (subject predicate : String)
    (d : Datum) : Prop :=
  t.subject = subject ∧ t.predicate = predicate ∧
    encode d = .ok t.encoded

/- For a value with a text, only one triple states it. -/
theorem Triple.states_iff
    {subject predicate v : String}
    {d : Datum}
    (hCode : encode d = .ok v)
    {t : Triple} :
    t.States subject predicate d ↔
      t = ⟨subject, predicate, v⟩ := by
  rcases t with ⟨s, p, code⟩
  simp [Triple.States, hCode, eq_comm]

/- The values of several predicates, each with its own. -/
def pairsOf
    (properties : List (String × List Datum)) :
    List (String × Datum) :=
  properties.flatMap fun (predicate, ds) =>
    ds.map fun d => (predicate, d)

theorem pairsOf_cons
    (predicate : String)
    (ds : List Datum)
    (properties : List (String × List Datum)) :
    pairsOf ((predicate, ds) :: properties) =
      (ds.map fun d => (predicate, d)) ++ pairsOf properties :=
  List.flatMap_cons

/- A pair comes from a property and one of its values. -/
theorem mem_pairsOf_iff
    {predicate : String}
    {d : Datum}
    {properties : List (String × List Datum)} :
    (predicate, d) ∈ pairsOf properties ↔
      ∃ ds, (predicate, ds) ∈ properties ∧ d ∈ ds := by
  simp only [pairsOf, List.mem_flatMap, List.mem_map]
  constructor
  · rintro ⟨⟨p, ds⟩, hProperty, _, hMember, hPair⟩
    cases hPair
    exact ⟨ds, hProperty, hMember⟩
  · rintro ⟨ds, hProperty, hMember⟩
    exact ⟨(predicate, ds), hProperty, d, hMember, rfl⟩

/-
  The triples that are written of some values of a subject, up
  to the first datum without an encoding, and how that ends.
-/
def written
    (subject : String) :
    List (String × Datum) →
      List Triple × Except StoreError Unit
  | [] => ([], .ok ())
  | (predicate, d) :: pairs =>
      match encode d with
      | .error e => ([], .error e)
      | .ok v =>
          let (ts, ending) := written subject pairs
          (⟨subject, predicate, v⟩ :: ts, ending)

/- A writing goes on after values that all have texts. -/
theorem written_append_of_ok
    {subject : String}
    {first : List (String × Datum)}
    (hEnding : (written subject first).2 = .ok ())
    (rest : List (String × Datum)) :
    written subject (first ++ rest) =
      ((written subject first).1 ++ (written subject rest).1,
        (written subject rest).2) := by
  induction first with
  | nil => rfl
  | cons pair first ih =>
      rcases pair with ⟨predicate, d⟩
      simp only [written, List.cons_append] at hEnding ⊢
      cases hCode : encode d with
      | error e => simp [hCode] at hEnding
      | ok v =>
          simp only [hCode] at hEnding ⊢
          simp [ih hEnding]

/- It stops at the first value that has none. -/
theorem written_append_of_error
    {subject : String}
    {first : List (String × Datum)}
    {e : StoreError}
    (hEnding : (written subject first).2 = .error e)
    (rest : List (String × Datum)) :
    written subject (first ++ rest) = written subject first := by
  induction first with
  | nil => cases hEnding
  | cons pair first ih =>
      rcases pair with ⟨predicate, d⟩
      simp only [written, List.cons_append] at hEnding ⊢
      cases hCode : encode d with
      | error fault => rfl
      | ok v =>
          simp only [hCode] at hEnding ⊢
          simp [ih hEnding]

/- All values are written when each datum has an encoding. -/
theorem written_eq_ok_iff
    (subject : String)
    {pairs : List (String × Datum)} :
    (written subject pairs).2 = .ok () ↔
      ∀ pair ∈ pairs, ∃ v, encode pair.2 = .ok v := by
  induction pairs with
  | nil => simp [written]
  | cons pair pairs ih =>
      cases hCode : encode pair.2 with
      | error e => simp [written, hCode]
      | ok v => simp [written, hCode, ih]

/- The triples written are those that state the values. -/
theorem mem_written_iff
    {subject : String}
    {pairs : List (String × Datum)}
    (hEnding : (written subject pairs).2 = .ok ())
    {t : Triple} :
    t ∈ (written subject pairs).1 ↔
      ∃ pair ∈ pairs, t.States subject pair.1 pair.2 := by
  induction pairs with
  | nil => simp [written]
  | cons pair pairs ih =>
      cases hCode : encode pair.2 with
      | error e => simp [written, hCode] at hEnding
      | ok v =>
          simp only [written, hCode] at hEnding ⊢
          rw [List.mem_cons, ih hEnding]
          simp [Triple.states_iff hCode]

namespace Store

variable {s : Store}
variable {c : Connection}
variable {rows : List Row}

/- A store changes the rows of its own collection. -/
theorem on_alter
    (hRows : c.content.rows s.collection = .ok rows)
    (change : List Row → List Row) :
    (s.alter change).on c =
      (.ok (), c.alter s.collection change) := by
  simp [Store.alter, Action.on_change, Database.alter,
    Connection.alter, hRows, Except.map]

/-
  A value that has a text is upserted, and nothing is done for
  another.
-/
theorem on_set
    (hRows : c.content.rows s.collection = .ok rows)
    (subject predicate : String)
    (d : Datum) :
    (s.set subject predicate d).on c =
      match encode d with
      | .error e => (.error e, c)
      | .ok v =>
          (.ok (), c.alter s.collection
            (Row.upsert (Triple.row ⟨subject, predicate, v⟩))) := by
  rw [Store.set, Action.on_bind, Action.on_lift,
    Triple.encoding]
  cases encode d with
  | error e => rfl
  | ok v => exact on_alter hRows _

/- The text of a value is what is looked for and deleted. -/
theorem on_deleteValue
    (hRows : c.content.rows s.collection = .ok rows)
    (subject predicate : String)
    (d : Datum) :
    (s.deleteValue subject predicate d).on c =
      match encode d with
      | .error e => (.error e, c)
      | .ok v =>
          (.ok (), c.alter s.collection (Row.delete fun r =>
            r = Triple.row ⟨subject, predicate, v⟩)) := by
  rw [Store.deleteValue, Action.on_bind, Action.on_lift,
    Triple.encoding]
  cases encode d with
  | error e => rfl
  | ok v => exact on_alter hRows _

/- A store reads the rows of its own collection. -/
theorem on_rows (s : Store) (c : Connection) :
    s.rows.on c =
      ((c.content.rows s.collection).mapError .execution, c) := by
  rw [Store.rows, Action.on_bind_ok (Action.on_content c),
    Action.on_execute]

theorem on_ensure
    (hRows : c.content.rows s.collection = .ok rows) :
    s.ensure.on c = (.ok (), c) := by
  rw [Store.ensure, Action.on_bind, on_rows, hRows]
  rfl

/- Values of one predicate are written one by one. -/
theorem on_setEach
    (hRows : c.content.rows s.collection = .ok rows)
    (subject predicate : String)
    (ds : List Datum) :
    (s.setEach subject predicate ds).on c =
      let (ts, ending) := written subject
        (ds.map fun d => (predicate, d))
      (ending, c.store s.collection ts) := by
  induction ds generalizing c rows with
  | nil => rfl
  | cons d ds ih =>
      rw [Store.setEach, Action.on_bind, on_set hRows,
        List.map_cons, written]
      cases encode d with
      | error e => rfl
      | ok v => exact ih (Connection.rows_alter hRows _)

/- Values of several predicates are written one by one. -/
theorem on_setEachProperty
    (hRows : c.content.rows s.collection = .ok rows)
    (subject : String)
    (properties : List (String × List Datum)) :
    (s.setEachProperty subject properties).on c =
      let (ts, ending) := written subject (pairsOf properties)
      (ending, c.store s.collection ts) := by
  induction properties generalizing c rows with
  | nil => rfl
  | cons property properties ih =>
      rcases property with ⟨predicate, ds⟩
      rw [Store.setEachProperty, Action.on_bind,
        on_setEach hRows, pairsOf_cons]
      cases hEnding :
          (written subject (ds.map fun d => (predicate, d))).2 with
      | error e =>
          simp only [written_append_of_error hEnding, hEnding]
      | ok _ =>
          simp only [written_append_of_ok hEnding, hEnding,
            Connection.store_append]
          exact ih (Connection.rows_store hRows _)

/-
  Values written in a batch: all of them, or none if a datum
  has no encoding.
-/
theorem on_batch
    (hIdle : c.inTransaction = false)
    (hRows : c.content.rows s.collection = .ok rows)
    {writes : Action Unit}
    {ts : List Triple}
    {ending : Except StoreError Unit}
    (hWrites :
      writes.on c.opened =
        (ending, c.opened.store s.collection ts)) :
    (Action.batch do s.ensure; writes).on c =
      c.storeAll s.collection (ts, ending) := by
  have hEnsured :
      (do s.ensure; writes : Action Unit).on c.opened =
        (ending, c.opened.store s.collection ts) := by
    rw [Action.on_bind_ok (on_ensure (c := c.opened) hRows),
      hWrites]
  have hOpen :
      (c.opened.store s.collection ts).inTransaction = true :=
    Connection.inTransaction_store ts
  cases ending with
  | ok _ =>
      rw [Action.on_batch_ok hIdle hEnsured hOpen,
        Connection.idle_content_store_opened hIdle]
      rfl
  | error e =>
      exact Action.on_batch_error hIdle hEnsured hOpen
        (Connection.committed_store_open rfl ts)

/- A batch of values stores their triples or none of them. -/
theorem on_setMany
    (hIdle : c.inTransaction = false)
    (hRows : c.content.rows s.collection = .ok rows)
    (subject predicate : String)
    (ds : List Datum) :
    (s.setMany subject predicate ds).on c =
      c.storeAll s.collection
        (written subject (ds.map fun d => (predicate, d))) := by
  cases ds with
  | nil => rfl
  | cons d ds =>
      exact on_batch hIdle hRows
        (on_setEach (c := c.opened) hRows subject predicate _)

/- So does a batch of properties, in the order of their values. -/
theorem on_setProperties
    (hIdle : c.inTransaction = false)
    (hRows : c.content.rows s.collection = .ok rows)
    (subject : String)
    (properties : List (String × List Datum)) :
    (s.setProperties subject properties).on c =
      c.storeAll s.collection
        (written subject (pairsOf properties)) :=
  on_batch hIdle hRows
    (on_setEachProperty (c := c.opened) hRows subject properties)

end Store

end Factbase
