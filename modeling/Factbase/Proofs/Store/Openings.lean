import Factbase.Proofs.Store.Reachable
import Mathlib.Tactic.SplitIfs

/-
  Which collections can be opened on a connection.

  A collection takes two names of the database, that of its table
  and that of its index, and the database keeps names of its own.
  Valid names of collections can therefore get in each other's
  way.  An opening fails exactly if the name of the index is one
  that the database keeps, if the name is that of the index of a
  collection opened before, or if the name of the index is one
  that was tried before.

  Key definitions include:
    * `Connection.Opens`
    * `Connection.openEach`
    * `Database.Tracks`

  Main declarations:
    * `isReserved_indexName_iff`
    * `Database.Tracks.createTable`
    * `Database.Tracks.createIndex`
    * `Connection.tracks_openEach`
    * `Connection.opens_iff`
-/

namespace Factbase

------------------------------------------------------------
-- Names of Indexes
------------------------------------------------------------

section Names

variable {name other : String}

/- The name of an index is folded as that of its collection. -/
theorem toList_foldName_indexName (name : String) :
    (foldName (indexName name)).toList =
      (foldName name).toList ++ "_predicate_value".toList := by
  rw [toList_foldName, toList_foldName, indexName,
    String.toList_append, List.map_append]
  rfl

/- Two indexes have one name only if their tables have. -/
theorem foldName_indexName_inj :
    foldName (indexName name) = foldName (indexName other) ↔
      foldName name = foldName other := by
  rw [← String.toList_inj, toList_foldName_indexName,
    toList_foldName_indexName, List.append_cancel_right_eq,
    String.toList_inj]

/- An index never has the name of its table. -/
theorem foldName_indexName_ne (name : String) :
    foldName (indexName name) ≠ foldName name := by
  intro hSame
  have hLength := congrArg (·.toList.length) hSame
  simp only [toList_foldName_indexName, List.length_append]
    at hLength
  have hSuffix : "_predicate_value".toList.length = 16 := by decide
  omega

/- The start of the names that the database keeps for itself. -/
theorem isReserved_iff :
    isReserved name = true ↔
      "sqlite_".toList <+: (foldName name).toList :=
  List.isPrefixOf_iff_prefix

/- The kept start has its only underscore at its end. -/
theorem init_of_kept
    {cs more : List Char}
    (hKept : "sqlite_".toList = cs ++ '_' :: more) :
    cs = "sqlite".toList := by
  have hInit : "sqlite".toList =
      ['s', 'q', 'l', 'i', 't', 'e'] := by decide
  simp [List.cons_eq_append_iff] at hKept
  rw [hInit]
  grind

/-
  Of the collections whose names are not kept, one has an index
  whose name is: its name ends where the kept start has its last
  character, which is the first one that an index adds.
-/
theorem isReserved_indexName_iff
    (hPlain : isReserved name = false) :
    isReserved (indexName name) = true ↔
      foldName name = "sqlite" := by
  rw [Bool.eq_false_iff, Ne, isReserved_iff] at hPlain
  rw [isReserved_iff, toList_foldName_indexName,
    ← String.toList_inj]
  generalize (foldName name).toList = cs at hPlain
  have hSuffix : "_predicate_value".toList =
      '_' :: "predicate_value".toList := rfl
  constructor
  · rintro ⟨rest, hSplit⟩
    rcases List.append_eq_append_iff.mp hSplit with
      ⟨more, hWhole, _⟩ | ⟨more, hStart, hRest⟩
    · exact absurd ⟨more, hWhole.symm⟩ hPlain
    · cases more with
      | nil =>
          rw [List.append_nil] at hStart
          exact absurd (hStart ▸ List.prefix_rfl) hPlain
      | cons c more =>
          rw [hSuffix, List.cons_append, List.cons.injEq] at hRest
          rw [← hRest.1] at hStart
          exact init_of_kept hStart
  · rintro rfl
    decide

end Names

------------------------------------------------------------
-- Names in a Database
------------------------------------------------------------

namespace Database

variable {db db' : Database}
variable {name other : String}
variable {tried opened : List String}

theorem hasTable_iff_exists :
    db.hasTable name = true ↔
      ∃ t ∈ db.tables, foldName name = t.1 := by
  simp [hasTable, rows?, List.lookup_isSome_iff]

theorem hasIndex_iff_exists :
    db.hasIndex name = true ↔
      ∃ i ∈ db.indexes, foldName name = i.1 := by
  simp [hasIndex, List.lookup_isSome_iff]

/- The names of one table are names of no other one. -/
theorem hasTable_of_fold_eq
    (hFold : foldName name = foldName other) :
    db.hasTable name = db.hasTable other := by
  rw [hasTable, hasTable, rows?, rows?, hFold]

theorem hasIndex_of_fold_eq
    (hFold : foldName name = foldName other) :
    db.hasIndex name = db.hasIndex other := by
  rw [hasIndex, hasIndex, hFold]

/- What is made by making a table. -/
theorem createTable_spec
    (hCreate : db.createTable name = .ok db') :
    (db.hasTable name = true ∨ db.hasIndex name = false) ∧
      (∀ x, db'.hasTable x = true ↔
        foldName x = foldName name ∨ db.hasTable x = true) ∧
      ∀ x, db'.hasIndex x = db.hasIndex x := by
  rw [createTable] at hCreate
  split_ifs at hCreate with _ hTable hIndex
  · cases hCreate
    refine ⟨.inl hTable, fun x => ?_, fun x => rfl⟩
    constructor
    · exact Or.inr
    · rintro (hFold | hThere)
      · rwa [hasTable_of_fold_eq hFold]
      · exact hThere
  · cases hCreate
    refine ⟨.inr (by simpa using hIndex), fun x => ?_,
      fun x => rfl⟩
    simp [hasTable_iff_exists]

/- What is made by making an index. -/
theorem createIndex_spec
    (hCreate : db.createIndex name = .ok db') :
    isReserved (indexName name) = false ∧
      db.hasTable (indexName name) = false ∧
      (∀ x, db'.hasIndex x = true ↔
        foldName x = foldName (indexName name) ∨
          db.hasIndex x = true) ∧
      ∀ x, db'.hasTable x = db.hasTable x := by
  simp only [createIndex] at hCreate
  split_ifs at hCreate with hReserved hTable hIndex
  · cases hCreate
    refine ⟨by simpa using hReserved, by simpa using hTable,
      fun x => ?_, fun x => rfl⟩
    constructor
    · exact Or.inr
    · rintro (hFold | hThere)
      · rwa [hasIndex_of_fold_eq hFold]
      · exact hThere
  · cases hCreate
    refine ⟨by simpa using hReserved, by simpa using hTable,
      fun x => ?_, fun x => rfl⟩
    simp [hasIndex_iff_exists]

/- A table is refused only because an index has its name. -/
theorem createTable_error
    {fault : EngineFault}
    (hPlain : isReserved name = false)
    (hCreate : db.createTable name = .error fault) :
    db.hasTable name = false ∧ db.hasIndex name = true := by
  rw [createTable, hPlain, if_neg Bool.false_ne_true] at hCreate
  split_ifs at hCreate with hTable hIndex
  exact ⟨by simpa using hTable, hIndex⟩

/-
  An index is refused only because the database keeps its name,
  or a table has it.
-/
theorem createIndex_error
    {fault : EngineFault}
    (hCreate : db.createIndex name = .error fault) :
    isReserved (indexName name) = true ∨
      db.hasTable (indexName name) = true := by
  simp only [createIndex] at hCreate
  split_ifs at hCreate with hReserved hTable
  · exact .inl hReserved
  · exact .inr hTable

/-
  What is known of a database after some names were tried, of
  which some were opened: the indexes are those of the names
  that were opened, the tables have names that were tried, and
  every name tried is that of a table or of an index.
-/
structure Tracks
    (db : Database)
    (tried opened : List String) : Prop where
  index :
    ∀ x, db.hasIndex x = true ↔
      ∃ m ∈ opened, foldName (indexName m) = foldName x
  table :
    ∀ x, db.hasTable x = true →
      ∃ m ∈ tried, foldName m = foldName x
  there :
    ∀ m ∈ tried, db.hasTable m = true ∨ db.hasIndex m = true
  whole :
    ∀ m ∈ opened, db.hasTable m = true ∧ foldName m ≠ "sqlite"
  apart :
    ∀ x, db.hasTable x = true → db.hasIndex x = false

theorem tracks_empty : Tracks .empty [] [] where
  index x := by simp [hasIndex, empty]
  table x hTable := by cases hTable
  there m hTried := by cases hTried
  whole m hOpened := by cases hOpened
  apart x _ := rfl

namespace Tracks

variable (hTracks : db.Tracks tried opened)
include hTracks

/- A table that is refused has the name of an index. -/
theorem refused
    (hIndex : db.hasIndex name = true) :
    db.Tracks (tried ++ [name]) opened where
  index := hTracks.index
  table x hTable := by
    rcases hTracks.table x hTable with ⟨m, hTried, hFold⟩
    exact ⟨m, List.mem_append_left _ hTried, hFold⟩
  there m hTried := by
    rcases List.mem_append.mp hTried with hTried | hLast
    · exact hTracks.there m hTried
    · rw [List.mem_singleton.mp hLast]
      exact .inr hIndex
  whole := hTracks.whole
  apart := hTracks.apart

/- A table that is made has a name that no index has. -/
theorem createTable
    (hCreate : db.createTable name = .ok db') :
    db'.Tracks (tried ++ [name]) opened := by
  rcases createTable_spec hCreate with ⟨hFree, hTable, hIndex⟩
  constructor
  case index =>
    intro x
    rw [hIndex]
    exact hTracks.index x
  case table =>
    intro x hThere
    rcases (hTable x).mp hThere with hFold | hOld
    · exact ⟨name, by simp, hFold.symm⟩
    · rcases hTracks.table x hOld with ⟨m, hTried, hFold⟩
      exact ⟨m, List.mem_append_left _ hTried, hFold⟩
  case there =>
    intro m hTried
    rw [hTable, hIndex]
    rcases List.mem_append.mp hTried with hTried | hLast
    · exact (hTracks.there m hTried).imp_left Or.inr
    · rw [List.mem_singleton.mp hLast]
      exact .inl (.inl rfl)
  case whole =>
    intro m hOpened
    rw [hTable]
    exact (hTracks.whole m hOpened).imp_left Or.inr
  case apart =>
    intro x hThere
    rw [hIndex]
    rcases (hTable x).mp hThere with hFold | hOld
    · rw [hasIndex_of_fold_eq hFold]
      exact hFree.elim (hTracks.apart name) id
    · exact hTracks.apart x hOld

/- With its index a collection is open. -/
theorem createIndex
    (hPlain : isReserved name = false)
    (hThere : db.hasTable name = true)
    (hCreate : db.createIndex name = .ok db') :
    db'.Tracks tried (opened ++ [name]) := by
  rcases createIndex_spec hCreate with
    ⟨hReserved, hFree, hIndex, hTable⟩
  have hOther : foldName name ≠ "sqlite" := by
    rw [Ne, ← isReserved_indexName_iff hPlain, hReserved]
    exact Bool.false_ne_true
  constructor
  case index =>
    intro x
    rw [hIndex, hTracks.index]
    constructor
    · rintro (hFold | ⟨m, hOpened, hFold⟩)
      · exact ⟨name, by simp, hFold.symm⟩
      · exact ⟨m, List.mem_append_left _ hOpened, hFold⟩
    · rintro ⟨m, hOpened, hFold⟩
      rcases List.mem_append.mp hOpened with hOpened | hLast
      · exact .inr ⟨m, hOpened, hFold⟩
      · rw [List.mem_singleton.mp hLast] at hFold
        exact .inl hFold.symm
  case table =>
    intro x
    rw [hTable]
    exact hTracks.table x
  case there =>
    intro m hTried
    rw [hTable, hIndex]
    exact (hTracks.there m hTried).imp_right Or.inr
  case whole =>
    intro m hOpened
    rw [hTable]
    rcases List.mem_append.mp hOpened with hOpened | hLast
    · exact hTracks.whole m hOpened
    · rw [List.mem_singleton.mp hLast]
      exact ⟨hThere, hOther⟩
  case apart =>
    intro x
    rw [hTable, Bool.eq_false_iff, Ne, hIndex]
    rintro hOwn (hFold | hOld)
    · rw [hasTable_of_fold_eq hFold, hFree] at hOwn
      cases hOwn
    · rw [hTracks.apart x hOwn] at hOld
      cases hOld

end Tracks

end Database

------------------------------------------------------------
-- Openings
------------------------------------------------------------

/- No valid name is reserved. -/
theorem isReserved_of_valid
    {name : String}
    (hName : validateCollection name = .ok ()) :
    isReserved name = false := by
  rw [validateCollection] at hName
  split_ifs at hName with hValid
  rw [Bool.and_eq_true, Bool.not_eq_true'] at hValid
  exact hValid.2

/- Identifiers in lower case are valid unless their start is kept. -/
theorem valid_of_lower
    {name : String}
    (hIdentifier : isIdentifier name = true)
    (hFold : foldName name = name)
    (hPlain : "sqlite_".toList.isPrefixOf name.toList = false) :
    validateCollection name = .ok () := by
  rw [validateCollection, hIdentifier, isReserved, hFold, hPlain]
  rfl

namespace Connection

/- A collection can be opened on a connection. -/
def Opens (c : Connection) (name : String) : Prop :=
  ((openStore name).on c).1 = .ok ⟨name⟩

/-
  Some collections are opened one after another, as far as they
  can be: those that are, and the connection afterwards.
-/
def openEach : Connection → List String → List String × Connection
  | c, [] => ([], c)
  | c, name :: names =>
      match (openStore name).on c with
      | (.ok _, c) =>
          let (opened, c) := c.openEach names
          (name :: opened, c)
      | (.error _, c) => c.openEach names

variable {c : Connection}
variable {name : String}
variable {tried opened : List String}

/-
  A collection of a valid name has no table, or a table and no
  index, or it is opened.
-/
theorem openStore_cases
    (c : Connection)
    (hName : validateCollection name = .ok ()) :
    (∃ fault, c.content.createTable name = .error fault ∧
      (openStore name).on c = (.error (.execution fault), c)) ∨
    (∃ db fault, c.content.createTable name = .ok db ∧
      db.createIndex name = .error fault ∧
      (openStore name).on c =
        (.error (.execution fault), c.write db)) ∨
    ∃ db db', c.content.createTable name = .ok db ∧
      db.createIndex name = .ok db' ∧
      (openStore name).on c =
        (.ok ⟨name⟩, (c.write db).write db') := by
  cases hTable : c.content.createTable name with
  | error fault =>
      refine .inl ⟨fault, rfl, ?_⟩
      rw [openStore]
      apply Action.on_bind_error
      rw [Action.migrate, hName,
        Action.on_bind_ok (Action.on_lift _ c)]
      apply Action.on_bind_error
      rw [Action.on_change, hTable]
  | ok db =>
      refine .inr ?_
      cases hIndex : db.createIndex name with
      | error fault =>
          refine .inl ⟨db, fault, rfl, hIndex, ?_⟩
          have hFirst : (Action.change (·.createTable name)).on c =
              (.ok (), c.write db) := by
            rw [Action.on_change, hTable]
          rw [openStore]
          apply Action.on_bind_error
          rw [Action.migrate, hName,
            Action.on_bind_ok (Action.on_lift _ c),
            Action.on_bind_ok hFirst, Action.on_change,
            content_write, hIndex]
      | ok db' =>
          refine .inr ⟨db, db', rfl, hIndex, ?_⟩
          rw [openStore, Action.on_bind_ok
            (Action.on_migrate hName hTable hIndex)]
          rfl

/- A collection opens if its table and its index are made. -/
theorem opens_iff_made (hName : validateCollection name = .ok ()) :
    c.Opens name ↔
      ∃ db db', c.content.createTable name = .ok db ∧
        db.createIndex name = .ok db' := by
  rw [Opens]
  rcases openStore_cases c hName with
    ⟨fault, hTable, hOpen⟩ | ⟨db, fault, hTable, hIndex, hOpen⟩ |
      ⟨db, db', hTable, hIndex, hOpen⟩
  · simp [hOpen, hTable]
  · simp [hOpen, hTable, hIndex]
  · simp [hOpen, hTable, hIndex]

/- An opening is tracked, whatever becomes of it. -/
theorem tracks_openStore
    (hTracks : c.content.Tracks tried opened)
    (hName : validateCollection name = .ok ()) :
    (∃ c', (openStore name).on c = (.ok ⟨name⟩, c') ∧
      c'.content.Tracks (tried ++ [name]) (opened ++ [name])) ∨
    ∃ e c', (openStore name).on c = (.error e, c') ∧
      c'.content.Tracks (tried ++ [name]) opened := by
  have hPlain := isReserved_of_valid hName
  rcases openStore_cases c hName with
    ⟨fault, hTable, hOpen⟩ | ⟨db, fault, hTable, _, hOpen⟩ |
      ⟨db, db', hTable, hIndex, hOpen⟩
  · refine .inr ⟨_, _, hOpen, hTracks.refused ?_⟩
    exact (Database.createTable_error hPlain hTable).2
  · refine .inr ⟨_, _, hOpen, ?_⟩
    rw [content_write]
    exact hTracks.createTable hTable
  · refine .inl ⟨_, hOpen, ?_⟩
    rw [content_write]
    apply (hTracks.createTable hTable).createIndex hPlain _ hIndex
    exact ((Database.createTable_spec hTable).2.1 name).mpr
      (.inl rfl)

/- The induction is on the names that are still to be tried. -/
theorem tracks_openEach
    (hTracks : c.content.Tracks tried opened)
    {names : List String}
    (hNames : ∀ m ∈ names, validateCollection m = .ok ()) :
    (c.openEach names).2.content.Tracks (tried ++ names)
      (opened ++ (c.openEach names).1) := by
  induction names generalizing c tried opened with
  | nil => simpa [openEach] using hTracks
  | cons name names ih =>
      rw [List.forall_mem_cons] at hNames
      rcases tracks_openStore hTracks hNames.1 with
        ⟨c', hOpen, hNext⟩ | ⟨e, c', hOpen, hNext⟩
      · have hRest := ih hNext hNames.2
        rw [openEach, hOpen]
        simpa using hRest
      · have hRest := ih hNext hNames.2
        rw [openEach, hOpen]
        simpa using hRest

section Tracked

variable (hTracks : c.content.Tracks tried opened)
variable (hName : validateCollection name = .ok ())
include hTracks hName

/- A collection that was opened before can be opened again. -/
theorem opens_again
    {m : String}
    (hOpened : m ∈ opened)
    (hFold : foldName m = foldName name) : c.Opens name := by
  have hPlain := isReserved_of_valid hName
  rcases hTracks.whole m hOpened with ⟨hTable, hOther⟩
  rw [Database.hasTable_of_fold_eq hFold] at hTable
  rw [hFold] at hOther
  rw [opens_iff_made hName]
  cases hCreate : c.content.createTable name with
  | error fault =>
      rw [(Database.createTable_error hPlain hCreate).1] at hTable
      cases hTable
  | ok db =>
      refine ⟨db, ?_⟩
      cases hIndex : db.createIndex name with
      | ok db' => exact ⟨db', rfl, rfl⟩
      | error fault =>
          exfalso
          rcases Database.createIndex_error hIndex with
            hKept | hTaken
          · exact hOther ((isReserved_indexName_iff hPlain).mp hKept)
          · rcases ((Database.createTable_spec hCreate).2.1 _).mp
              hTaken with hSame | hTaken
            · exact foldName_indexName_ne name hSame
            · have hFree := hTracks.apart _ hTaken
              have hOwn := (hTracks.index (indexName name)).mpr
                ⟨m, hOpened, foldName_indexName_inj.mpr hFold⟩
              rw [hFree] at hOwn
              cases hOwn

/- A name that nothing before it is in the way of is opened. -/
theorem opens_apart
    (hOther : foldName name ≠ "sqlite")
    (hTable : ∀ m ∈ opened,
      foldName (indexName m) ≠ foldName name)
    (hIndex : ∀ m ∈ tried,
      foldName m ≠ foldName (indexName name)) :
    c.Opens name := by
  have hPlain := isReserved_of_valid hName
  rw [opens_iff_made hName]
  cases hCreate : c.content.createTable name with
  | error fault =>
      rcases (hTracks.index name).mp
        (Database.createTable_error hPlain hCreate).2 with
        ⟨m, hOpened, hFold⟩
      exact absurd hFold (hTable m hOpened)
  | ok db =>
      refine ⟨db, ?_⟩
      cases hCreateIndex : db.createIndex name with
      | ok db' => exact ⟨db', rfl, rfl⟩
      | error fault =>
          exfalso
          rcases Database.createIndex_error hCreateIndex with
            hKept | hTaken
          · exact hOther ((isReserved_indexName_iff hPlain).mp hKept)
          · rcases ((Database.createTable_spec hCreate).2.1 _).mp
              hTaken with hSame | hTaken
            · exact foldName_indexName_ne name hSame
            · rcases hTracks.table _ hTaken with
                ⟨m, hTried, hFold⟩
              exact hIndex m hTried hFold

/- What is opened was opened before, or nothing is in its way. -/
theorem again_or_apart_of_opens (hOpens : c.Opens name) :
    (∃ m ∈ opened, foldName m = foldName name) ∨
      foldName name ≠ "sqlite" ∧
        (∀ m ∈ opened, foldName (indexName m) ≠ foldName name) ∧
        ∀ m ∈ tried, foldName m ≠ foldName (indexName name) := by
  have hPlain := isReserved_of_valid hName
  rcases (opens_iff_made hName).mp hOpens with
    ⟨db, db', hCreate, hCreateIndex⟩
  rcases Database.createTable_spec hCreate with ⟨hFree, hTables, _⟩
  rcases Database.createIndex_spec hCreateIndex with
    ⟨hReserved, hNoTable, _, _⟩
  have hNoTable : ¬ c.content.hasTable (indexName name) = true := by
    intro hTaken
    rw [(hTables _).mpr (.inr hTaken)] at hNoTable
    cases hNoTable
  by_cases hOld : c.content.hasIndex (indexName name) = true
  · rcases (hTracks.index _).mp hOld with ⟨m, hOpened, hFold⟩
    exact .inl ⟨m, hOpened, foldName_indexName_inj.mp hFold⟩
  · refine .inr ⟨?_, ?_, ?_⟩
    · rw [Ne, ← isReserved_indexName_iff hPlain, hReserved]
      exact Bool.false_ne_true
    · intro m hOpened hFold
      have hIndex := (hTracks.index name).mpr ⟨m, hOpened, hFold⟩
      rcases hFree with hTable | hFree
      · rw [hTracks.apart name hTable] at hIndex
        cases hIndex
      · rw [hFree] at hIndex
        cases hIndex
    · intro m hTried hFold
      rcases hTracks.there m hTried with hTable | hIndex
      · rw [Database.hasTable_of_fold_eq hFold] at hTable
        exact hNoTable hTable
      · rw [Database.hasIndex_of_fold_eq hFold] at hIndex
        exact hOld hIndex

end Tracked

/-
  After any openings on a connection to nothing, a valid name
  can be opened exactly if it was opened before or nothing is in
  its way: the database does not keep the name of its index, no
  collection that was opened has an index of its name, and no
  collection that was tried has the name of its index.
-/
theorem opens_iff
    {earlier : List String}
    (hEarlier : ∀ m ∈ earlier, validateCollection m = .ok ())
    {name : String}
    (hName : validateCollection name = .ok ()) :
    let (opened, c) := (idle .empty).openEach earlier
    (c.Opens name ↔ ((Action.migrate name).on c).1 = .ok ()) ∧
    (c.Opens name ↔
      (∃ m ∈ opened, foldName m = foldName name) ∨
      foldName name ≠ "sqlite" ∧
        (∀ m ∈ opened, foldName (indexName m) ≠ foldName name) ∧
        ∀ m ∈ earlier, foldName m ≠ foldName (indexName name)) := by
  have hTracks := tracks_openEach (c := idle .empty)
    Database.tracks_empty hEarlier
  rw [List.nil_append, List.nil_append] at hTracks
  refine ⟨?_, again_or_apart_of_opens hTracks hName, ?_⟩
  · rw [Opens, openStore, Action.on_bind]
    rcases (Action.migrate name).on
      ((idle .empty).openEach earlier).2 with ⟨_ | _, c⟩ <;>
      simp
  · rintro (⟨m, hOpened, hFold⟩ | ⟨hOther, hTable, hIndex⟩)
    · exact opens_again hTracks hName hOpened hFold
    · exact opens_apart hTracks hName hOther hTable hIndex

/-
  Nothing can be opened under the name `sqlite`, nor under that
  of the index of a collection that was opened.
-/
theorem opens_iff_people_sqlite :
    validateCollection "people" = .ok () ∧
      validateCollection "people_predicate_value" = .ok () ∧
      validateCollection "sqlite" = .ok () ∧
      (idle .empty).openEach ["people"] =
        (["people"], fresh "people") ∧
      ¬ (fresh "people").Opens "people_predicate_value" ∧
      ¬ (idle .empty).Opens "sqlite" := by
  have hPeople : validateCollection "people" = .ok () :=
    valid_of_lower (by decide) (foldName_eq_self rfl) (by decide)
  have hIndex :
      validateCollection "people_predicate_value" = .ok () :=
    valid_of_lower (by decide) (foldName_eq_self rfl) (by decide)
  have hSqlite : validateCollection "sqlite" = .ok () :=
    valid_of_lower (by decide) (foldName_eq_self rfl) (by decide)
  have hFirst : (idle .empty).openEach ["people"] =
      (["people"], fresh "people") := by
    rw [openEach, openStore, Action.on_bind_ok
      (on_migrate_empty (by decide) (foldName_eq_self rfl)
        (by decide))]
    rfl
  have hName : indexName "people" = "people_predicate_value" := rfl
  have hFold : foldName "people" = "people" :=
    foldName_eq_self rfl
  have hFoldIndex : foldName "people_predicate_value" =
      "people_predicate_value" :=
    foldName_eq_self rfl
  have hFoldSqlite : foldName "sqlite" = "sqlite" :=
    foldName_eq_self rfl
  refine ⟨hPeople, hIndex, hSqlite, hFirst, ?_, ?_⟩
  · have hSecond := @opens_iff ["people"] (by simpa using hPeople)
      _ hIndex
    rw [hFirst] at hSecond
    rw [hSecond.2]
    simp [hName, hFold, hFoldIndex]
  · have hAlone := @opens_iff [] (by simp) _ hSqlite
    rw [openEach] at hAlone
    rw [hAlone.2]
    simp [hFoldSqlite]

end Connection

end Factbase
