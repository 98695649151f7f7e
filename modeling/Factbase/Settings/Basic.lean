import Factbase.Data.Codec
import Factbase.Store.Place

/-
  This file defines the settings for opening a store and for
  logging, their defaults, and their form as stored data.

  Key definitions include:
    * `StorageSettings`
    * `LoggingSettings`
    * `Settings`
    * `Settings.toDatum`
    * `Settings.shape`
-/

namespace Factbase

------------------------------------------------------------
-- Settings
------------------------------------------------------------

/- Where a store keeps its triples. -/
structure StorageSettings where
  /- The file of the database; none means memory. -/
  path : Option String
  collection : String
deriving DecidableEq, Repr

/- What is logged. -/
structure LoggingSettings where
  filter : String
deriving DecidableEq, Repr

/- All settings. -/
structure Settings where
  storage : StorageSettings
  logging : LoggingSettings
deriving DecidableEq, Repr

/- A collection of triples in memory. -/
def StorageSettings.default : StorageSettings :=
  ⟨none, "triples"⟩

/- What happens, without details. -/
def LoggingSettings.default : LoggingSettings :=
  ⟨"info"⟩

/- The settings that hold unless others are given. -/
def Settings.default : Settings :=
  ⟨.default, .default⟩

/- Where the connection of a store keeps its content. -/
def StorageSettings.mode
    (s : StorageSettings) : PersistenceMode :=
  match s.path with
  | none => .memory
  | some path => .file path

------------------------------------------------------------
-- Stored form
------------------------------------------------------------

/- The settings of a store as a datum. -/
def StorageSettings.toDatum (s : StorageSettings) : Datum :=
  .record [
    ("path", Shape.text.optionDatum s.path),
    ("collection", some (.text s.collection))]

def LoggingSettings.toDatum (s : LoggingSettings) : Datum :=
  .record [("filter", some (.text s.filter))]

def Settings.toDatum (s : Settings) : Datum :=
  .record [
    ("storage", some s.storage.toDatum),
    ("logging", some s.logging.toDatum)]

------------------------------------------------------------
-- Reading
------------------------------------------------------------

/- The settings of a store, each with its default. -/
def StorageSettings.read : Json.Reader StorageSettings :=
  Json.readRecord "StorageSettings"
    [Json.field "path" (Json.readOption Json.readText)
        fun x s => { s with path := x },
      Json.field "collection" Json.readText
        fun x s => { s with collection := x }]
    .default

/- The settings of logging, each with its default. -/
def LoggingSettings.read : Json.Reader LoggingSettings :=
  Json.readRecord "LoggingSettings"
    [Json.field "filter" Json.readText
        fun x _ => { filter := x }]
    .default

/- Settings, each with its default. -/
def Settings.read : Json.Reader Settings :=
  Json.readRecord "Settings"
    [Json.field "storage" StorageSettings.read
        fun x s => { s with storage := x },
      Json.field "logging" LoggingSettings.read
        fun x s => { s with logging := x }]
    .default

def Settings.shape : Shape Settings :=
  { toDatum := Settings.toDatum,
    read := fun _ => Settings.read }

end Factbase
