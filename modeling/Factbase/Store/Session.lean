import Factbase.Store.Place
import Factbase.Store.Store

/-
  This file defines sessions: one connection that stores share,
  and stores that own the connection they use.

  The content of a named file is on the disk, so connections to
  one file see what was committed on the others.  So do those to
  named memory, as long as one of them is open.  A connection
  that names neither keeps its content to itself.

  Key definitions include:
    * `Disk`
    * `Link`
    * `Session`
    * `Session.onShared`
    * `Session.on`
-/

namespace Factbase

------------------------------------------------------------
-- Links
------------------------------------------------------------

/- The committed content of files and named memory. -/
abbrev Disk :=
  List (Storage × Database)

namespace Disk

/- The content of a storage, empty if there is none. -/
def content
    (disk : Disk)
    (storage : Storage) : Database :=
  (List.lookup storage disk).getD .empty

/- The disk with the content of a storage. -/
def put
    (disk : Disk)
    (storage : Storage)
    (db : Database) : Disk :=
  (storage, db) :: disk.filter (·.1 ≠ storage)

/- Whether there is a storage. -/
def has
    (disk : Disk)
    (storage : Storage) : Bool :=
  (List.lookup storage disk).isSome

end Disk

/- A connection, and the storage that its content is in. -/
structure Link where
  storage : Option Storage
  connection : Connection
deriving DecidableEq, Repr

namespace Link

/- The connection as the disk has it. -/
def load
    (l : Link)
    (disk : Disk) : Connection :=
  match l.storage with
  | none => l.connection
  | some storage =>
      { l.connection with committed := disk.content storage }

/- The disk after what was committed on a connection. -/
def save
    (l : Link)
    (disk : Disk)
    (c : Connection) : Disk :=
  match l.storage with
  | none => disk
  | some storage => disk.put storage c.committed

/- Connect to where a mode says; a file is made that is not there. -/
def connect
    (disk : Disk)
    (mode : PersistenceMode) : Except StoreError (Link × Disk) := do
  let storage ← (mode.storage? disk.has).mapError .execution
  let link := ⟨storage, .idle .empty⟩
  .ok (link, link.save disk (link.load disk))

/- Do something on the connection. -/
def run
    {α : Type}
    (l : Link)
    (disk : Disk)
    (action : Action α) : Except StoreError α × Disk × Link :=
  let (result, c) := action.on (l.load disk)
  (result, l.save disk c, { l with connection := c })

end Link

------------------------------------------------------------
-- Sessions
------------------------------------------------------------

/- A store, and the connection that it owns, if any. -/
structure Handle where
  store : Store
  own : Option Link
deriving DecidableEq, Repr

/- Files, the shared connection, and the stores by name. -/
structure Session where
  disk : Disk
  shared : Link
  handles : List (String × Handle)
deriving DecidableEq, Repr

namespace Session

/- A session whose shared connection is to where a mode says. -/
def start
    (mode : PersistenceMode) : Except StoreError Session := do
  let (shared, disk) ← Link.connect [] mode
  .ok ⟨disk, shared, []⟩

/- The store of a name. -/
def handle?
    (s : Session)
    (name : String) : Option Handle :=
  s.handles.lookup name

/- Whether a connection uses a storage. -/
def uses
    (s : Session)
    (storage : Storage) : Bool :=
  s.shared.storage = some storage
    || s.handles.any fun (_, h) =>
      (h.own.bind Link.storage) = some storage

/- The session without what nothing uses and does not last. -/
def settled (s : Session) : Session :=
  { s with
    disk := s.disk.filter fun (storage, _) =>
      storage.lasts || s.uses storage }

/- The session without the store of a name. -/
def close
    (s : Session)
    (name : String) : Session :=
  { s with handles := s.handles.filter (·.1 ≠ name) }.settled

/- The session with a store under a name. -/
def keep
    (s : Session)
    (name : String)
    (h : Handle) : Session :=
  { s with
    handles := (name, h) :: s.handles.filter (·.1 ≠ name) }.settled

/- Do something on the shared connection. -/
def onShared
    {α : Type}
    (s : Session)
    (action : Action α) : Except StoreError α × Session :=
  let (result, disk, shared) := s.shared.run s.disk action
  (result, { s with disk := disk, shared := shared })

/- Do something with the store of a name, if there is one. -/
def on
    {α : Type}
    (s : Session)
    (name : String)
    (action : Store → Action α) :
    Option (Except StoreError α × Session) :=
  (s.handle? name).map fun h =>
    match h.own with
    | none => s.onShared (action h.store)
    | some link =>
        let (result, disk, link) :=
          link.run s.disk (action h.store)
        (result,
          { s with disk := disk }.keep name
            { h with own := some link })

/- Open a store on the shared connection. -/
def openShared
    (s : Session)
    (name collection : String) :
    Except StoreError Store × Session :=
  match s.onShared (openStore collection) with
  | (.ok store, s) => (.ok store, s.keep name ⟨store, none⟩)
  | (.error e, s) => (.error e, s)

/- Open a store on a connection of its own. -/
def openOwn
    (s : Session)
    (name : String)
    (mode : PersistenceMode)
    (collection : String) :
    Except StoreError Store × Session :=
  match Link.connect s.disk mode with
  | .error e => (.error e, s)
  | .ok (link, disk) =>
      match link.run disk (openStore collection) with
      | (.ok store, disk, link) =>
          (.ok store,
            { s with disk := disk }.keep name ⟨store, some link⟩)
      | (.error e, disk, _) =>
          (.error e, { s with disk := disk }.settled)

end Session

end Factbase
