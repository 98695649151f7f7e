import Factbase.Proofs.Store.Locality
import Factbase.Store.Session

/-
  Stores that share one connection.

  Two stores of a session may mean one collection, as the case
  of names does not count, and then they always list the same.
  Otherwise nothing that is asked of one of them can be told from
  the answers of the other.  To open a collection again or to
  close a store leaves every collection as it is.

  Key definitions include:
    * `Session.view`
    * `Session.Serves`
    * `Session.transcript`
    * `Session.concerns`
    * `Upkeep`

  Main declarations:
    * `Session.view_onShared`
    * `Session.serves_of_openShared`
    * `Session.Agree.use`
    * `Session.Agree.use_other`
    * `Session.Agree.transcript_filter`
    * `Session.tables_maintained`
    * `Session.stores_of_shared_connection`
-/

namespace Factbase

------------------------------------------------------------
-- Disks
------------------------------------------------------------

namespace Disk

/- What is put into a storage is found there. -/
theorem content_put
    (disk : Disk)
    (storage : Storage)
    (db : Database) :
    (disk.put storage db).content storage = db := by
  simp [put, content]

/- A storage that is kept has its content. -/
theorem content_filter
    {keeps : Storage × Database → Bool}
    {storage : Storage}
    (hKept : ∀ db, keeps (storage, db) = true)
    (disk : Disk) :
    content (disk.filter keeps) storage = disk.content storage := by
  rw [content, content]
  induction disk with
  | nil => rfl
  | cons entry disk ih =>
      rcases entry with ⟨key, db⟩
      by_cases hKey : storage = key
      · subst hKey
        rw [List.filter_cons, if_pos (hKept db),
          List.lookup_cons_self, List.lookup_cons_self]
      · rw [List.filter_cons]
        split_ifs <;>
          simp only [List.lookup_cons,
            beq_eq_false_iff_ne.mpr hKey, ih]

end Disk

------------------------------------------------------------
-- The Shared Connection
------------------------------------------------------------

namespace Session

variable {s s' : Session}
variable {name collection : String}

/- The shared connection as the disk has it. -/
def view (s : Session) : Connection :=
  s.shared.load s.disk

theorem answer_onShared
    {α : Type}
    (s : Session)
    (action : Action α) :
    (s.onShared action).1 = (action.on s.view).1 := rfl

/- What is done on the shared connection, its view shows. -/
theorem view_onShared
    {α : Type}
    (s : Session)
    (action : Action α) :
    (s.onShared action).2.view = (action.on s.view).2 := by
  rcases s with ⟨disk, ⟨_ | storage, c⟩, handles⟩
  · rfl
  · simp [view, onShared, Link.run, Link.save, Link.load,
      Disk.content_put]

/- Settling what is shared does not change what is seen. -/
@[simp] theorem view_settled (s : Session) :
    s.settled.view = s.view := by
  rcases s with ⟨disk, ⟨_ | storage, c⟩, handles⟩
  · rfl
  · simp only [view, settled, Link.load]
    rw [Disk.content_filter]
    simp [uses]

@[simp] theorem view_close (s : Session) (name : String) :
    (s.close name).view = s.view :=
  view_settled _

@[simp] theorem view_keep
    (s : Session)
    (name : String)
    (h : Handle) : (s.keep name h).view = s.view :=
  view_settled _

/- A store that is opened is kept or not, the view is the same. -/
theorem view_openShared
    (s : Session)
    (name collection : String) :
    (s.openShared name collection).2.view =
      ((openStore collection).on s.view).2 := by
  rw [← view_onShared, openShared]
  rcases s.onShared (openStore collection) with
    ⟨e | store, s'⟩
  · rfl
  · exact view_keep s' name ⟨store, none⟩

/-
  A store is open on the shared connection, and its collection
  is there.
-/
structure Serves
    (s : Session)
    (name : String)
    (store : Store) : Prop where
  handle : s.handle? name = some ⟨store, none⟩
  table : s.view.content.hasTable store.collection = true

/- A store that is opened on the shared connection is served. -/
theorem serves_of_openShared
    {store : Store}
    (hOpen : (s.openShared name collection).1 = .ok store) :
    store.collection = collection ∧
      (s.openShared name collection).2.Serves name store := by
  have hView := view_onShared s (openStore collection)
  rw [openShared] at hOpen ⊢
  rcases hShared : s.onShared (openStore collection) with
    ⟨e | opened, s'⟩
  · rw [hShared] at hOpen
    cases hOpen
  · rw [hShared] at hOpen hView
    cases hOpen
    have hAnswer := answer_onShared s (openStore collection)
    rw [hShared] at hAnswer
    rw [openStore, Action.on_bind_pure] at hAnswer hView
    rcases hMigrate : (Action.migrate collection).on s.view with
      ⟨e | _, c⟩
    · rw [hMigrate] at hAnswer
      cases hAnswer
    · rw [hMigrate] at hAnswer hView
      cases hAnswer
      refine ⟨rfl, ?_, ?_⟩
      · simp [keep, settled, handle?]
      · rw [view_keep, hView]
        exact Action.hasTable_migrate hMigrate

------------------------------------------------------------
-- Uses
------------------------------------------------------------

/- What a store of the session answers, and what is left. -/
def use
    (s : Session)
    (name : String)
    (u : Use) : Option (Except StoreError Reply) × Session :=
  match s.on name fun store => u.action store with
  | none => (none, s)
  | some (answer, s') => (some answer, s')

def after
    (s : Session)
    (steps : List (String × Use)) : Session :=
  steps.foldl (fun s step => (s.use step.1 step.2).2) s

/- Some uses with their answers. -/
def transcript (s : Session) :
    List (String × Use) →
      List ((String × Use) × Option (Except StoreError Reply))
  | [] => []
  | step :: steps =>
      let (answer, s') := s.use step.1 step.2
      (step, answer) :: s'.transcript steps

/- The first use is answered, and the others go on from there. -/
theorem transcript_cons
    (step : String × Use)
    (steps : List (String × Use)) :
    s.transcript (step :: steps) =
      (step, (s.use step.1 step.2).1) ::
        (s.use step.1 step.2).2.transcript steps := rfl

/- A use is one of a store of the collection. -/
def concerns
    (s : Session)
    (store : Store)
    (step : String × Use) : Bool :=
  (s.handle? step.1).any fun h =>
    foldName h.store.collection = foldName store.collection

variable {store : Store}

/-
  A handle that serves a store answers as the store does on the
  shared connection.
-/
theorem Serves.use_eq
    (hServes : s.Serves name store)
    (u : Use) :
    s.use name u =
      (some ((u.action store).on s.view).1,
        (s.onShared (u.action store)).2) := by
  rw [use, Session.on, hServes.handle]
  rfl

/- No use of a store opens or closes a handle. -/
@[simp] theorem Serves.handles_use
    (hServes : s.Serves name store)
    (u : Use) :
    (s.use name u).2.handles = s.handles := by
  rw [hServes.use_eq]
  rfl

/- What is seen afterwards is what the store has left. -/
theorem Serves.view_use
    (hServes : s.Serves name store)
    (u : Use) :
    (s.use name u).2.view = ((u.action store).on s.view).2 := by
  rw [hServes.use_eq, view_onShared]

/- A store that is served has a table. -/
theorem Serves.exists_rows
    (hServes : s.Serves name store) :
    ∃ rows, s.view.content.rows store.collection = .ok rows :=
  Database.hasTable_iff.mp hServes.table

/- A use changes the rows of the collection of its store. -/
theorem Serves.exists_view_use
    (hServes : s.Serves name store)
    (hIdle : s.view.inTransaction = false)
    (u : Use) :
    ∃ changes, (s.use name u).2.view =
      s.view.alterAll store.collection changes := by
  rcases hServes.exists_rows with ⟨rows, hRows⟩
  rcases u.exists_changes store with ⟨changes, hChanges⟩
  refine ⟨changes, ?_⟩
  rw [hServes.view_use, hChanges s.view rows hIdle hRows]

/- Handles and tables are all that serving a store needs. -/
theorem Serves.of_rows?_eq
    (hServes : s.Serves name store)
    (hHandles : s'.handles = s.handles)
    (hRows :
      s'.view.content.rows? store.collection =
        s.view.content.rows? store.collection) :
    s'.Serves name store := by
  refine ⟨?_, ?_⟩
  · rw [handle?, hHandles]
    exact hServes.handle
  · rw [Database.hasTable, hRows]
    exact hServes.table

/- Which uses concern a store depends on the handles alone. -/
theorem concerns_of_handles_eq
    (hHandles : s'.handles = s.handles)
    (store : Store) : s'.concerns store = s.concerns store := by
  funext step
  rw [concerns, concerns, handle?, handle?, hHandles]

------------------------------------------------------------
-- Two Sessions with One Collection in Common
------------------------------------------------------------

/-
  Two sessions have the same stores and the same rows in one
  collection, whatever there is in the others.
-/
structure Agree
    (s s' : Session)
    (collection : String) : Prop where
  handles : s'.handles = s.handles
  idle : s.view.inTransaction = false
  idle' : s'.view.inTransaction = false
  rows :
    s'.view.content.rows? collection =
      s.view.content.rows? collection

/- A session agrees with itself outside of a transaction. -/
theorem Agree.refl
    (hIdle : s.view.inTransaction = false)
    (collection : String) : s.Agree s collection :=
  ⟨rfl, hIdle, hIdle, rfl⟩

/-
  A use of the collection is answered alike in both sessions,
  and they still have the collection in common.
-/
theorem Agree.use
    (hAgree : s.Agree s' collection)
    (hServes : s.Serves name store)
    (hOwn : foldName store.collection = foldName collection)
    (u : Use) :
    (s'.use name u).1 = (s.use name u).1 ∧
      (s.use name u).2.Agree (s'.use name u).2 collection := by
  have hSame :
      s'.view.content.rows? store.collection =
        s.view.content.rows? store.collection := by
    rw [Database.rows?_of_fold_eq hOwn,
      Database.rows?_of_fold_eq hOwn]
    exact hAgree.rows
  have hServes' := hServes.of_rows?_eq hAgree.handles hSame
  rcases hServes.exists_rows with ⟨rows, hRows⟩
  have hRows' : s'.view.content.rows store.collection =
      .ok rows := by
    rw [Database.rows_eq_ok_iff] at hRows ⊢
    rw [hSame, hRows]
  rcases u.exists_changes store with ⟨changes, hChanges⟩
  have hAfter := hChanges s.view rows hAgree.idle hRows
  have hAfter' := hChanges s'.view rows hAgree.idle' hRows'
  rw [← hServes.view_use] at hAfter
  rw [← hServes'.view_use] at hAfter'
  refine ⟨?_, ?_, ?_, ?_, ?_⟩
  · rw [hServes.use_eq, hServes'.use_eq, u.on_congr hAgree.idle
      hAgree.idle' hRows hRows']
  · rw [hServes.handles_use, hServes'.handles_use, hAgree.handles]
  · rw [hAfter, Connection.inTransaction_alterAll, hAgree.idle]
  · rw [hAfter', Connection.inTransaction_alterAll, hAgree.idle']
  · have hDone := Connection.rows_alterAll hRows changes
    have hDone' := Connection.rows_alterAll hRows' changes
    rw [Database.rows_eq_ok_iff] at hDone hDone'
    rw [hAfter, hAfter', ← Database.rows?_of_fold_eq hOwn,
      ← Database.rows?_of_fold_eq hOwn, hDone, hDone']

/- What is asked of another collection makes no difference. -/
theorem Agree.use_other
    (hAgree : s.Agree s' collection)
    (hServes : s.Serves name store)
    (hOther : foldName store.collection ≠ foldName collection)
    (u : Use) : (s.use name u).2.Agree s' collection := by
  rcases hServes.exists_view_use hAgree.idle u with
    ⟨changes, hAfter⟩
  refine ⟨?_, ?_, hAgree.idle', ?_⟩
  · rw [hServes.handles_use, hAgree.handles]
  · rw [hAfter, Connection.inTransaction_alterAll, hAgree.idle]
  · rw [hAfter,
      Connection.rows?_alterAll_of_ne (Ne.symm hOther) changes,
      hAgree.rows]

------------------------------------------------------------
-- Runs
------------------------------------------------------------

/- A use leaves no transaction open. -/
theorem Serves.idle_use
    (hServes : s.Serves name store)
    (hIdle : s.view.inTransaction = false)
    (u : Use) : (s.use name u).2.view.inTransaction = false := by
  rcases hServes.exists_view_use hIdle u with ⟨changes, hAfter⟩
  rw [hAfter, Connection.inTransaction_alterAll, hIdle]

/- A use keeps all stores open and their collections there. -/
theorem Serves.serves_use
    {user : String}
    {used : Store}
    (hServes : s.Serves name store)
    (hIdle : s.view.inTransaction = false)
    (hUser : s.Serves user used)
    (u : Use) : (s.use user u).2.Serves name store := by
  rcases hUser.exists_view_use hIdle u with ⟨changes, hAfter⟩
  refine ⟨?_, ?_⟩
  · rw [handle?, hUser.handles_use]
    exact hServes.handle
  · rw [hAfter, Database.hasTable]
    by_cases hOwn :
        foldName store.collection = foldName used.collection
    · rcases hUser.exists_rows with ⟨rows, hRows⟩
      have hDone := Connection.rows_alterAll hRows changes
      rw [Database.rows_eq_ok_iff] at hDone
      rw [Database.rows?_of_fold_eq hOwn, hDone]
      rfl
    · rw [Connection.rows?_alterAll_of_ne hOwn]
      exact hServes.table

/- Uses of stores that are served. -/
def AllServed
    (s : Session)
    (steps : List (String × Use)) : Prop :=
  ∀ step ∈ steps, ∃ store, s.Serves step.1 store

/- After one use, the handles of the others still serve. -/
theorem AllServed.tail
    {step : String × Use}
    {steps : List (String × Use)}
    (hServed : s.AllServed (step :: steps))
    (hIdle : s.view.inTransaction = false) :
    (s.use step.1 step.2).2.AllServed steps := by
  rcases List.forall_mem_cons.mp hServed with ⟨⟨used, hUser⟩, hRest⟩
  intro next hMember
  rcases hRest next hMember with ⟨store, hServes⟩
  exact ⟨store, hServes.serves_use hIdle hUser step.2⟩

/- The induction is on the uses that are still to come. -/
theorem Serves.after
    {steps : List (String × Use)}
    (hServes : s.Serves name store)
    (hIdle : s.view.inTransaction = false)
    (hServed : s.AllServed steps) :
    (s.after steps).Serves name store := by
  induction steps generalizing s with
  | nil => exact hServes
  | cons step steps ih =>
      rcases hServed step List.mem_cons_self with ⟨used, hUser⟩
      exact ih (hServes.serves_use hIdle hUser step.2)
        (hUser.idle_use hIdle step.2) (hServed.tail hIdle)

/- Two stores of one collection list the same. -/
theorem Serves.list_eq
    {other : String}
    {store' : Store}
    (hServes : s.Serves name store)
    (hOther : s.Serves other store')
    (hFold :
      foldName store.collection = foldName store'.collection)
    (q : Query) :
    (s.use name (.list q)).1 = (s.use other (.list q)).1 := by
  rcases hOther.exists_rows with ⟨rows, hRows'⟩
  have hRows : s.view.content.rows store.collection =
      .ok rows := by
    rw [Database.rows_eq_ok_iff] at hRows' ⊢
    rw [Database.rows?_of_fold_eq hFold, hRows']
  rw [hServes.use_eq, hOther.use_eq, Use.action, Use.action,
    Action.on_bind_pure, Action.on_bind_pure,
    Store.list_eq_of_rows hFold hRows hRows']

/-
  Without the uses of other collections, those of a collection
  are answered as they are among them.  The induction is on the
  uses, for any two sessions that have the collection in common.
-/
theorem Agree.transcript_filter
    {steps : List (String × Use)}
    (hAgree : s.Agree s' store.collection)
    (hServed : s.AllServed steps) :
    s'.transcript (steps.filter (s.concerns store)) =
      (s.transcript steps).filter fun entry =>
        s.concerns store entry.1 := by
  induction steps generalizing s s' with
  | nil => rfl
  | cons step steps ih =>
      rcases hServed step List.mem_cons_self with ⟨used, hUser⟩
      have hRest := hServed.tail hAgree.idle
      have hConcerns := concerns_of_handles_eq
        (hUser.handles_use step.2) store
      have hStep : s.concerns store step = decide
          (foldName used.collection =
            foldName store.collection) := by
        rw [concerns, hUser.handle]
        rfl
      rw [transcript_cons, List.filter_cons, List.filter_cons,
        hStep]
      by_cases hOwn :
          foldName used.collection = foldName store.collection
      · rcases hAgree.use hUser hOwn step.2 with
          ⟨hAnswer, hAgree'⟩
        have hTail := ih hAgree' hRest
        rw [hConcerns] at hTail
        simp only [hOwn, decide_true, if_true]
        rw [transcript_cons, hAnswer, hTail]
      · have hTail := ih (hAgree.use_other hUser hOwn step.2) hRest
        rw [hConcerns] at hTail
        simp only [hOwn, decide_false]
        exact hTail

------------------------------------------------------------
-- Opening Again and Closing
------------------------------------------------------------

/- What may be done with the stores of a session besides using them. -/
inductive Upkeep where
  | reopen (name collection : String)
  | close (name : String)

/- The session after it. -/
def maintain (s : Session) : Upkeep → Session
  | .reopen name collection => (s.openShared name collection).2
  | .close name => s.close name

/- It makes no collection, as what is opened again is there. -/
def Upkeep.MakesNone (s : Session) : Upkeep → Prop
  | .reopen _ collection =>
      s.view.content.hasTable collection = true
  | .close _ => True

/- Upkeep that makes no table leaves the tables as they are. -/
theorem tables_maintain
    {upkeep : Upkeep}
    (hMakes : upkeep.MakesNone s) :
    (s.maintain upkeep).view.content.tables =
      s.view.content.tables := by
  cases upkeep with
  | close name => rw [maintain, view_close]
  | reopen name collection =>
      rw [maintain, view_openShared, openStore,
        Action.on_bind_pure]
      exact Action.tables_migrate hMakes

/- The induction is on the upkeep, from one session to the next. -/
theorem tables_maintained
    {upkeeps : List Upkeep}
    (hMakes : ∀ upkeep ∈ upkeeps, upkeep.MakesNone s) :
    (upkeeps.foldl maintain s).view.content.tables =
      s.view.content.tables := by
  induction upkeeps generalizing s with
  | nil => rfl
  | cons upkeep upkeeps ih =>
      rw [List.forall_mem_cons] at hMakes
      have hTables := tables_maintain hMakes.1
      rw [List.foldl_cons, ih ?_, hTables]
      intro next hMember
      have hNext := hMakes.2 next hMember
      cases next with
      | close name => trivial
      | reopen name collection =>
          rw [Upkeep.MakesNone, Database.hasTable,
            Database.rows?_of_tables_eq hTables]
          exact hNext

------------------------------------------------------------
-- Sharing a Connection
------------------------------------------------------------

/-
  A store that could be opened on the shared connection is served
  there.  Outside a transaction, stores that are served and whose
  names differ in case only list the same after any uses, and all
  uses of a collection are answered as if only they had been
  made.  Whatever the state of the connection, to open
  collections again that are there and to close stores leaves
  what every collection lists.
-/
theorem stores_of_shared_connection (s : Session) :
    (∀ name collection store,
      (s.openShared name collection).1 = .ok store →
        store.collection = collection ∧
          (s.openShared name collection).2.Serves name store) ∧
    (s.view.inTransaction = false →
      ∀ steps, s.AllServed steps →
        (∀ name store other store',
          s.Serves name store → s.Serves other store' →
          foldName store.collection =
            foldName store'.collection →
          ∀ q, ((s.after steps).use name (.list q)).1 =
            ((s.after steps).use other (.list q)).1) ∧
        ∀ store,
          s.transcript (steps.filter (s.concerns store)) =
            (s.transcript steps).filter fun entry =>
              s.concerns store entry.1) ∧
    ∀ upkeeps : List Upkeep,
      (∀ upkeep ∈ upkeeps, upkeep.MakesNone s) →
      ∀ (store : Store) (q : Query),
        ((upkeeps.foldl maintain s).onShared (store.list q)).1 =
          (s.onShared (store.list q)).1 := by
  refine ⟨fun name collection store => serves_of_openShared,
    fun hIdle steps hServed => ⟨?_, ?_⟩, ?_⟩
  · intro name store other store' hServes hOther hFold q
    exact (hServes.after hIdle hServed).list_eq
      (hOther.after hIdle hServed) hFold q
  · intro store
    exact (Agree.refl hIdle _).transcript_filter hServed
  · intro upkeeps hMakes store q
    rw [answer_onShared, answer_onShared, Store.on_list,
      Store.on_list,
      Database.prepare_of_tables_eq (tables_maintained hMakes)]

/- People opened twice, in different spellings, beside pets. -/
def peopleAndPets : Session :=
  ⟨[],
    ⟨none, .idle ⟨[("pets", []), ("people", [])],
      [("pets_predicate_value", "pets"),
        ("people_predicate_value", "people")]⟩⟩,
    [("c", ⟨⟨"pets"⟩, none⟩), ("b", ⟨⟨"pEOPLE"⟩, none⟩),
      ("a", ⟨⟨"People"⟩, none⟩)]⟩

/- Each store writes, one deletes, and a batch fails. -/
def mixedUses : List (String × Use) :=
  [("a", .perform (.set "ann" "age" (.integer 30))),
    ("c", .perform (.setMany "rex" "age"
      [.integer 3, .map [(.unit, .unit)]])),
    ("b", .perform (.setMany "bob" "age" [.integer 25, .unit])),
    ("c", .perform (.set "ann" "age" .unit)),
    ("a", .list .all),
    ("c", .perform (.deleteSubject "ann")),
    ("b", .get "ann" "age")]

theorem stores_of_shared_connection_people :
    peopleAndPets.view.inTransaction = false ∧
    peopleAndPets.AllServed mixedUses ∧
    ((peopleAndPets.after mixedUses).use "a" (.list .all)).1 =
      ((peopleAndPets.after mixedUses).use "b" (.list .all)).1 ∧
    peopleAndPets.transcript
        (mixedUses.filter (peopleAndPets.concerns ⟨"people"⟩)) =
      ((peopleAndPets.transcript mixedUses).filter fun entry =>
        peopleAndPets.concerns ⟨"people"⟩ entry.1) ∧
    ((([.close "a", .reopen "d" "PETS", .close "c"].foldl maintain
        peopleAndPets).onShared (Store.list ⟨"pets"⟩ .all)).1 =
      (peopleAndPets.onShared (Store.list ⟨"pets"⟩ .all)).1) := by
  have hFold : foldName "People" = "people" := by
    rw [← String.toList_inj, toList_foldName]
    rfl
  have hFold' : foldName "pEOPLE" = "people" := by
    rw [← String.toList_inj, toList_foldName]
    rfl
  have hPets : ∀ name, foldName name = "pets" →
      peopleAndPets.view.content.hasTable name = true := by
    intro name hName
    rw [Database.hasTable, Database.rows?, hName]
    rfl
  have hPeople : ∀ name, foldName name = "people" →
      peopleAndPets.view.content.hasTable name = true := by
    intro name hName
    rw [Database.hasTable, Database.rows?, hName]
    rfl
  have hFirst : peopleAndPets.Serves "a" ⟨"People"⟩ :=
    ⟨rfl, hPeople _ hFold⟩
  have hSecond : peopleAndPets.Serves "b" ⟨"pEOPLE"⟩ :=
    ⟨rfl, hPeople _ hFold'⟩
  have hThird : peopleAndPets.Serves "c" ⟨"pets"⟩ :=
    ⟨rfl, hPets _ (foldName_eq_self rfl)⟩
  have hServed : peopleAndPets.AllServed mixedUses := by
    simp only [AllServed, mixedUses, List.forall_mem_cons]
    refine ⟨⟨_, hFirst⟩, ⟨_, hThird⟩, ⟨_, hSecond⟩, ⟨_, hThird⟩,
      ⟨_, hFirst⟩, ⟨_, hThird⟩, ⟨_, hSecond⟩, ?_⟩
    simp
  rcases stores_of_shared_connection peopleAndPets with
    ⟨_, hUses, hUpkeep⟩
  rcases hUses rfl mixedUses hServed with ⟨hSame, hApart⟩
  refine ⟨rfl, hServed, ?_, hApart ⟨"people"⟩, ?_⟩
  · exact hSame _ _ _ _ hFirst hSecond (hFold.trans hFold'.symm)
      .all
  · apply hUpkeep
    simp only [List.forall_mem_cons, Upkeep.MakesNone, true_and]
    refine ⟨hPets _ ?_, by simp⟩
    rw [← String.toList_inj, toList_foldName]
    rfl

end Session

end Factbase
