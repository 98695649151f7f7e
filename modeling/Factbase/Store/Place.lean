import Factbase.Store.Address

/-
  This file defines where connections keep their content: in
  memory, or in a file of the working directory.

  Key definitions include:
    * `PersistenceMode`
    * `Storage`
    * `localFile?`
    * `Address.file?`
    * `PersistenceMode.storage?`
-/

namespace Factbase

------------------------------------------------------------
-- Modes
------------------------------------------------------------

/- Where a connection keeps its content. -/
inductive PersistenceMode where
  | memory
  | file (path : String)
deriving DecidableEq, Repr

/- Where several connections can have the same content. -/
inductive Storage where
  | file (name : List UInt8)
  /- Memory that lasts while a connection uses it. -/
  | memory (name : List UInt8)
deriving DecidableEq, Repr

/- Whether content stays when no connection uses it. -/
def Storage.lasts : Storage → Bool
  | .file _ => true
  | .memory _ => false

------------------------------------------------------------
-- Paths
------------------------------------------------------------

/-
  The parts below the working directory that a path leads to,
  the last one first.  A part may go back over the part before
  it, whether there is such a folder or not.
-/
def descend :
    List (List UInt8) → List (List UInt8) →
    Option (List (List UInt8))
  | below, [] => some below
  | below, part :: parts =>
      if part = [] ∨ part = ['.'.toUInt8] then descend below parts
      else if part = ['.'.toUInt8, '.'.toUInt8] then
        match below with
        | [] => none
        | _ :: below => descend below parts
      else descend (part :: below) parts

/- The most bytes that the name of a file has. -/
def longestName : Nat :=
  255

/- The name of a file in the working directory, which has no folders. -/
def localFile? (path : List UInt8) : Option (List UInt8) :=
  let parts := path.splitOn '/'.toUInt8
  if parts.head? = some [] then none
  else match descend [] parts with
    | some [name] =>
        if name.length ≤ longestName then some name else none
    | _ => none

------------------------------------------------------------
-- Storage
------------------------------------------------------------

/- The name that means memory. -/
def memoryName : List UInt8 :=
  ":memory:".toUTF8.toList

/- Whether an address is one of memory. -/
def Address.isMemory (a : Address) : Bool :=
  a.access = .memory || a.name = memoryName

/- The file of an address, if it is there or may be made. -/
def Address.file?
    (there : Storage → Bool)
    (a : Address) : Option Storage := do
  let file := Storage.file (← localFile? a.name)
  if a.access = .create ∨ there file then some file else none

/-
  The storage that a mode names, or none if the content is
  private to the connection; some storages are there already.
-/
def PersistenceMode.storage?
    (there : Storage → Bool) :
    PersistenceMode → Except EngineFault (Option Storage)
  | .memory => .ok none
  | .file path => do
      let bytes := path.toUTF8.toList
      if 0 ∈ bytes then throw (.nulInPath (bytes.idxOf 0))
      let address ← Address.read path.toList
      if address.name = [] then .ok none
      else if address.isMemory then
        .ok (if address.shared then some (.memory address.name)
          else none)
      else match address.file? there with
        | some storage => .ok (some storage)
        | none => .error (.cannotOpen path)

end Factbase
