import Factbase.Proofs.Store.Invariants

/-
  The connections that requests can lead to.

  A request opens or drops a collection, writes to one, or opens
  and ends a transaction.  What was committed on one connection
  may be seen on another one to the same content.  All of this
  keeps every table sound: no row twice, and a triple in each.

  Main declarations:
    * `Request`
    * `Connection.Reachable`
    * `Connection.Sound`
    * `Connection.Reachable.sound`
    * `Connection.Reachable.rows_sound`
-/

namespace Factbase

------------------------------------------------------------
-- Requests
------------------------------------------------------------

/- What can be asked of a connection and may change it. -/
inductive Request where
  | openStore (collection : String)
  | drop (collection : String)
  | perform (s : Store) (command : Command)
  /- Another program adds a triple with any text as its value. -/
  | insert (s : Store) (t : Triple)
  | begin
  | commit
  | rollBack

/- What a connection does at a request. -/
def Request.action : Request → Action Unit
  | .openStore collection => Action.migrate collection
  | .drop collection => Action.dropTable collection
  | .perform s command => command.action s
  | .insert s t => s.insert t.row
  | .begin => Action.begin
  | .commit => Action.commit
  | .rollBack => Action.rollBack

/-
  The connections that requests lead to from an empty one, where
  two connections may also have their content in common.
-/
inductive Connection.Reachable : Connection → Prop where
  | start : Reachable (.idle .empty)
  | step
      {c : Connection}
      (hReach : Reachable c)
      (request : Request) :
      Reachable (request.action.on c).2
  | refresh
      {c d : Connection}
      (hReach : Reachable c)
      (hOther : Reachable d) :
      Reachable { c with committed := d.committed }

------------------------------------------------------------
-- Requests That Keep Properties
------------------------------------------------------------

/-
  Every request keeps a property of rows that encodings fit, if
  what another program adds fits it as well.
-/
theorem Request.keeps
    {holds : List Row → Prop}
    {fits : Triple → Prop}
    (hKept : Row.Kept holds fits)
    (hFits : ∀ subject predicate d t,
      Triple.encoding subject predicate d = .ok t → fits t)
    (request : Request)
    (hOthers : ∀ s t, request = .insert s t → fits t) :
    Action.Keeps holds request.action := by
  cases request with
  | openStore collection =>
      exact Action.keeps_migrate hKept.nil collection
  | drop collection => exact Action.keeps_dropTable collection
  | perform s command => exact s.keeps_command hKept hFits command
  | insert s t => exact s.keeps_insert hKept (hOthers s t rfl)
  | begin => exact Action.keeps_begin
  | commit => exact Action.keeps_commit
  | rollBack => exact Action.keeps_rollBack

------------------------------------------------------------
-- Sound Content
------------------------------------------------------------

namespace Database

/- The rows of every table are sound. -/
def Sound (db : Database) : Prop :=
  ∀ table ∈ db.tables, Row.Sound table.2

end Database

namespace Connection

/- What was committed is sound, and so is what is pending. -/
structure Sound (c : Connection) : Prop where
  committed : c.committed.Sound
  pending : ∀ db ∈ c.pending, db.Sound

theorem sound_iff_all {c : Connection} :
    c.Sound ↔ c.All Row.Sound :=
  ⟨fun hSound => ⟨hSound.committed, hSound.pending⟩,
    fun hAll => ⟨hAll.committed, hAll.pending⟩⟩

end Connection

/- An action leaves a sound connection sound. -/
def Action.KeepsSound
    {α : Type}
    (action : Action α) : Prop :=
  ∀ c : Connection, c.Sound → (action.on c).2.Sound

/- Any triple can be added to sound rows. -/
theorem Row.kept_sound : Row.Kept Row.Sound fun _ => True where
  nil := Row.Sound.nil
  upsert _ t hSound _ := hSound.upsert t
  delete _ doomed hSound := hSound.delete doomed

theorem Request.keepsSound (request : Request) :
    Action.KeepsSound request.action := by
  intro c hSound
  rw [Connection.sound_iff_all] at hSound ⊢
  exact request.keeps Row.kept_sound
    (fun _ _ _ _ _ => trivial) (fun _ _ _ => trivial) c hSound

------------------------------------------------------------
-- Reachable Connections
------------------------------------------------------------

namespace Connection

variable {c : Connection}

/-
  Reachable connections are sound.  The induction is on how the
  connection is reached.
-/
theorem Reachable.sound (hReach : c.Reachable) : c.Sound := by
  induction hReach with
  | start => exact sound_iff_all.mpr (all_idle Database.all_empty)
  | step _ request ih => exact request.keepsSound _ ih
  | refresh _ _ ih ihOther =>
      exact ⟨ihOther.committed, ih.pending⟩

/- Every collection on a reachable connection is sound. -/
theorem Reachable.rows_sound
    (hReach : c.Reachable)
    {collection : String}
    {rows : List Row}
    (hRows : c.content.rows collection = .ok rows) :
    Row.Sound rows :=
  (sound_iff_all.mp hReach.sound).content.rows hRows

/- Runs of commands lead to reachable connections. -/
theorem Reachable.runAll
    (hReach : c.Reachable)
    (s : Store)
    (commands : List Command) :
    (s.runAll commands c).2.Reachable := by
  induction commands generalizing c with
  | nil => exact hReach
  | cons command commands ih =>
      exact ih (hReach.step (.perform s command))

/-
  A collection with a name in lower case can be opened, unless
  its index has a name that the database keeps for itself.
-/
theorem on_migrate_empty
    {name : String}
    (hIdentifier : isIdentifier name = true)
    (hFold : foldName name = name)
    (hPlain :
      "sqlite_".toList.isPrefixOf (indexName name).toList =
        false) :
    (Action.migrate name).on (.idle .empty) =
      (.ok (), fresh name) := by
  have hIndexFold :
      foldName (indexName name) = indexName name := by
    rw [← String.toList_inj, toList_foldName] at hFold ⊢
    simp only [indexName, String.toList_append,
      List.map_append, hFold]
    rfl
  have hIndexPlain : isReserved (indexName name) = false := by
    rw [isReserved, hIndexFold]
    exact hPlain
  have hNamePlain : isReserved name = false := by
    rw [isReserved, hFold, Bool.eq_false_iff]
    intro hPrefix
    have hIndexPrefix :
        "sqlite_".toList <+: (indexName name).toList := by
      rw [indexName, String.toList_append]
      exact (List.isPrefixOf_iff_prefix.mp hPrefix).trans
        (List.prefix_append _ _)
    rw [← List.isPrefixOf_iff_prefix, hPlain] at hIndexPrefix
    cases hIndexPrefix
  -- the index has a longer name than the table
  have hOther : indexName name ≠ name := by
    intro hSame
    have hLength := congrArg String.length hSame
    simp [indexName] at hLength
  have hValid : validateCollection name = .ok () := by
    simp [validateCollection, hIdentifier, hNamePlain]
  have hTable :
      Database.empty.createTable name =
        .ok ⟨[(name, [])], []⟩ := by
    rw [Database.createTable, hNamePlain, hFold]
    rfl
  have hIndex :
      Database.createIndex ⟨[(name, [])], []⟩ name =
        .ok ⟨[(name, [])], [(indexName name, name)]⟩ := by
    simp [Database.createIndex, hIndexPlain, Database.hasTable,
      Database.rows?, Database.hasIndex, hIndexFold, hFold,
      hOther]
  exact Action.on_migrate (c := .idle .empty)
    hValid hTable hIndex

theorem reachable_fresh
    {name : String}
    (hIdentifier : isIdentifier name = true)
    (hFold : foldName name = name)
    (hPlain :
      "sqlite_".toList.isPrefixOf (indexName name).toList =
        false) :
    (fresh name).Reachable := by
  have hReach := Reachable.start.step (.openStore name)
  rw [Request.action,
    on_migrate_empty hIdentifier hFold hPlain] at hReach
  exact hReach

end Connection

end Factbase
