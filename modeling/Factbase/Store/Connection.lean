import Factbase.Store.Database

/-
  This file defines connections to a database and what can be
  done on one.

  What is done inside a transaction is seen on its connection
  only, until the transaction is committed.  An action that
  fails keeps what it changed before, unless it is a batch.

  Key definitions include:
    * `Connection`
    * `Action`
    * `Action.on`
    * `Action.begin`
    * `Action.commit`
    * `Action.rollBack`
    * `Action.batch`
    * `Action.migrate`
-/

namespace Factbase

------------------------------------------------------------
-- Connections
------------------------------------------------------------

/-
  A connection: the content that was committed, whether a
  transaction is open, and the content in that transaction
  once it has changed something.
-/
@[ext] structure Connection where
  committed : Database
  inTransaction : Bool
  pending : Option Database
  pending_of_idle : inTransaction = false → pending = none
deriving DecidableEq, Repr

namespace Connection

/- A connection to some content, with no transaction open. -/
def idle (db : Database) : Connection :=
  ⟨db, false, none, fun _ => rfl⟩

/- The content that is seen on a connection. -/
def content (c : Connection) : Database :=
  c.pending.getD c.committed

def opened (c : Connection) : Connection :=
  { c with inTransaction := true, pending_of_idle := nofun }

/- Change the content that is seen on a connection. -/
def write
    (c : Connection)
    (db : Database) : Connection :=
  if h : c.inTransaction then
    { c with pending := some db, pending_of_idle := by simp [h] }
  else { c with committed := db }

end Connection

------------------------------------------------------------
-- Actions
------------------------------------------------------------

/- What can be done on a connection. -/
abbrev Action (α : Type) :=
  ExceptT StoreError (StateM Connection) α

namespace Action

/- What an action answers, and the connection after it. -/
def on
    {α : Type}
    (action : Action α)
    (c : Connection) : Except StoreError α × Connection :=
  action.run c

/- The result of something that does not use the connection. -/
def lift
    {α : Type} :
    Except StoreError α → Action α
  | .ok x => pure x
  | .error e => throw e

/- The result of something that the database does. -/
def execute
    {α : Type}
    (result : Except EngineFault α) : Action α :=
  lift (result.mapError .execution)

/- The content that is seen. -/
def content : Action Database := do
  pure (← get).content

def change
    (f : Database → Except EngineFault Database) :
    Action Unit := do
  let db ← execute (f (← content))
  modify (·.write db)

------------------------------------------------------------
-- Transactions
------------------------------------------------------------

def begin : Action Unit := do
  if (← get).inTransaction then
    execute (.error .nestedTransaction)
  else modify Connection.opened

/- Keep what the transaction changed. -/
def commit : Action Unit := do
  if (← get).inTransaction then
    modify fun c => .idle c.content
  else execute (.error .nothingToCommit)

/- Forget what the transaction changed. -/
def rollBack : Action Unit := do
  if (← get).inTransaction then
    modify fun c => .idle c.committed
  else execute (.error .nothingToRollBack)

/-
  Do something in a transaction of its own, all of it or, if it
  fails, nothing.
-/
def batch (action : Action Unit) : Action Unit := do
  begin
  try
    action
  catch e =>
    rollBack
    throw e
  commit

------------------------------------------------------------
-- Collections
------------------------------------------------------------

/-
  Make the table and the index of a collection, unless they
  are there.  The table stays if there can be no index.
-/
def migrate (collection : String) : Action Unit := do
  lift (validateCollection collection)
  change (·.createTable collection)
  change (·.createIndex collection)

/- Remove the table of a collection. -/
def dropTable (collection : String) : Action Unit :=
  change (·.dropTable collection)

end Action

end Factbase
