import Factbase.Data.Datum

/-
  This file defines what can go wrong with a store, and the
  wording that callers see.

  Key definitions include:
    * `EngineFault`
    * `StoreError`
    * `StoreError.message`
-/

namespace Factbase

------------------------------------------------------------
-- Faults of the database
------------------------------------------------------------

/- Why the database did not do what it was told. -/
inductive EngineFault where
  | noTable (name : String)
  /- A table was to be made, but an index has its name. -/
  | indexExists (name : String)
  /- An index was to be made, but a table has its name. -/
  | tableExists (name : String)
  /- The name belongs to the database itself. -/
  | reservedName (name : String)
  /- The driver adds the text of the statement to the wording,
     which is left out here. -/
  | tooManyVariables
  | tooManyTerms
  | circularReference (name : String)
  | nestedTransaction
  | nothingToCommit
  | nothingToRollBack
  | cannotOpen (path : String)
  | nulInPath (position : Nat)
  /- An address names another machine. -/
  | unknownMachine (name : String)
  /- An option of an address has a value that it cannot have. -/
  | unknownMode (option name : String)
  /- An option of an address asks for more than another one. -/
  | forbiddenMode (name : String)
  | unknownSystem (name : String)
  | blobInValue
deriving DecidableEq, Repr

/- The wording of a fault. -/
def EngineFault.message : EngineFault → String
  | .noTable name => "no such table: " ++ name
  | .indexExists name => "there is already an index named " ++ name
  | .tableExists name => "there is already a table named " ++ name
  | .reservedName name =>
      "object name reserved for internal use: " ++ name
  | .tooManyVariables => "too many SQL variables"
  | .tooManyTerms => "too many terms in compound SELECT"
  | .circularReference name => "circular reference: " ++ name
  | .nestedTransaction =>
      "cannot start a transaction within a transaction"
  | .nothingToCommit =>
      "cannot commit - no transaction is active"
  | .nothingToRollBack =>
      "cannot rollback - no transaction is active"
  | .cannotOpen path => "unable to open database file: " ++ path
  | .nulInPath position =>
      "nul byte found in provided data at position: "
        ++ toString position
  | .unknownMachine name => "invalid uri authority: " ++ name
  | .unknownMode option name =>
      "no such " ++ option ++ " mode: " ++ name
  | .forbiddenMode name => "access mode not allowed: " ++ name
  | .unknownSystem name => "no such vfs: " ++ name
  | .blobInValue =>
      "Invalid column type Blob at index: 2, name: value"

------------------------------------------------------------
-- Errors
------------------------------------------------------------

/- What can go wrong with a store. -/
inductive StoreError where
  | config (reason : String)
  | encode (fault : EncodeFault)
  | decode (reason : String)
  | execution (fault : EngineFault)
  | invalidCollection (name : String)
  | ungrouped (subject : String)
deriving DecidableEq, Repr

namespace StoreError

def kind : StoreError → String
  | .config _ => "Config"
  | .encode _ => "Encode"
  | .decode _ => "Decode"
  | .execution _ => "Execution"
  | .invalidCollection _ => "InvalidCollection"
  | .ungrouped _ => "Ungrouped"

/- The wording of an error. -/
def message : StoreError → String
  | .config reason => "Config error: " ++ reason
  | .encode fault => "Encode error: " ++ fault.message
  | .decode reason => "Decode error: " ++ reason
  | .execution fault => "Execution error: " ++ fault.message
  | .invalidCollection name =>
      "Invalid collection name: '" ++ name ++ "'"
  | .ungrouped subject =>
      "Triples for subject '" ++ subject ++ "' are not contiguous"

end StoreError

end Factbase
