import Factbase.Settings.Basic
import Factbase.Toml.Document

/-
  This file defines how settings are loaded.  Later sources
  override earlier ones, each setting for itself:

    1. the defaults,
    2. a file, if one is named,
    3. environment variables whose names have one start and
       then the keys, with two underscores between sections.

  Key definitions include:
    * `SettingsFile`
    * `SettingsFault`
    * `SettingsFile.entries`
    * `environmentEntry`
    * `Settings.ofConfig`
    * `Settings.load`
-/

namespace Factbase

------------------------------------------------------------
-- Files
------------------------------------------------------------

/- A named file, and its text if there is such a file. -/
structure SettingsFile where
  name : String
  text : Option String
deriving DecidableEq, Repr

/-
  The formats that are modelled.  YAML, INI, RON and JSON5 are
  left out, and so is the search for a file that is named without
  its extension: both count as an unknown format here.
-/
inductive SettingsFormat where
  | toml
  | json
deriving DecidableEq, Repr

/- The last part of a path that leads to a file. -/
def fileName (path : String) : List Char :=
  ((path.toList.splitOn '/').filter fun part =>
    part ≠ [] && part ≠ ['.']).getLastD []

/- The part of a file's name after its last point, unless that
   is the first character of the name. -/
def extension? (path : String) : Option String :=
  let backwards := (fileName path).reverse
  match (backwards.dropWhile (· ≠ '.')).drop 1 with
  | [] => none
  | _ => some (.ofList (backwards.takeWhile (· ≠ '.')).reverse)

/- The format that the name of a file tells. -/
def SettingsFormat.ofName? (name : String) : Option SettingsFormat :=
  match extension? name with
  | some "toml" => some .toml
  | some "json" => some .json
  | _ => none

/- Why settings cannot be loaded. -/
inductive SettingsFault where
  | noFile (name : String)
  | unknownFormat (name : String)
  | malformed (name : String)
  /- A setting, or a section of settings, is of another kind. -/
  | misfit
deriving DecidableEq, Repr

/- The wording of a fault. -/
def SettingsFault.message : SettingsFault → String
  | .noFile name =>
      "configuration file \"" ++ name ++ "\" not found"
  | .unknownFormat name =>
      "configuration file \"" ++ name
        ++ "\" is not of a registered file format"
  | .malformed name =>
      "configuration file \"" ++ name ++ "\" is malformed"
  | .misfit => "a setting is not of its kind"

/- A text without a byte order mark. -/
def withoutMark (text : String) : String :=
  match text.toList with
  | c :: cs => if c = '\ufeff' then .ofList cs else text
  | [] => text

mutual

/- The configuration of a JSON tree. -/
def Config.ofTree : Json.Tree → Config
  | .null => .null
  | .bool b => .bool b
  | .number (.natural n) => .integer n
  | .number (.negative n) => .integer (-n)
  | .number (.float x) => .float x
  | .text s => .text s
  | .list ts => .list (Config.ofTrees ts)
  | .object ms => .table (Entries.ofList (Config.ofMembers ms))

/- The configuration of the items of a tree. -/
def Config.ofTrees : List Json.Tree → List Config
  | [] => []
  | t :: ts => Config.ofTree t :: Config.ofTrees ts

/- The configuration of the members of a tree. -/
def Config.ofMembers :
    List (String × Json.Tree) → List (String × Config)
  | [] => []
  | (k, t) :: ms => (k, Config.ofTree t) :: Config.ofMembers ms

end

/- The entries of a JSON text that is an object. -/
def jsonEntries (text : String) : Option (List (String × Config)) :=
  match Json.readAll (Json.readTree Json.deepest) text.toList with
  | .ok (.object ms) => some (Entries.ofList (Config.ofMembers ms))
  | _ => none

def SettingsFormat.entries
    (f : SettingsFormat)
    (text : String) : Option (List (String × Config)) :=
  match f with
  | .toml => Toml.read text
  | .json => jsonEntries text

def SettingsFile.entries
    (f : SettingsFile) :
    Except SettingsFault (List (String × Config)) :=
  match f.text with
  | none => .error (.noFile f.name)
  | some text =>
      match SettingsFormat.ofName? f.name with
      | none => .error (.unknownFormat f.name)
      | some format =>
          match format.entries (withoutMark text) with
          | none => .error (.malformed f.name)
          | some entries => .ok entries

------------------------------------------------------------
-- Environment
------------------------------------------------------------

/- What the names of the variables start with, in lower case. -/
def environmentPrefix : List Char :=
  "tristore__".toList

/- A name with a point for every two underscores. -/
def pointed : List Char → List Char
  | '_' :: '_' :: cs => '.' :: pointed cs
  | c :: cs => c :: pointed cs
  | [] => []

/- A letter in lower case, where that is an ASCII letter. -/
def lowerCase (c : Char) : Char :=
  if c = '\u212a' then 'k' else c.toLower

/-
  The entry of an environment variable, if its name starts as
  it should.  The case of the name does not count.
-/
def environmentEntry
    (name value : String) : Option (String × Config) :=
  let lower := name.toList.map lowerCase
  if environmentPrefix.isPrefixOf lower then
    let key := pointed (lower.drop environmentPrefix.length)
    some (.ofList key, .text value)
  else none

------------------------------------------------------------
-- Settings of a tree
------------------------------------------------------------

def Config.optional? : Config → Option (Option String)
  | .null => some none
  | v => v.text?.map some

/-
  A part of a record that is written as a table, or as a list
  of its parts in order; a part that is missing has a default.
-/
def Config.part
    {α : Type}
    (record : Config)
    (name : String)
    (index : Nat)
    (fallback : α)
    (read : Config → Option α) : Option α := do
  let found ← match record with
    | .table es => some (Entries.find? name es)
    | .list vs => some vs[index]?
    | _ => none
  match found with
  | none => pure fallback
  | some v => read v

/- The settings of a store. -/
def StorageSettings.ofConfig
    (v : Config) : Option StorageSettings := do
  pure {
    path := ← v.part "path" 0 default.path Config.optional?,
    collection :=
      ← v.part "collection" 1 default.collection Config.text? }

def LoggingSettings.ofConfig
    (v : Config) : Option LoggingSettings := do
  pure {
    filter := ← v.part "filter" 0 default.filter Config.text? }

/- The settings in a tree, each with its default. -/
def Settings.ofConfig (v : Config) : Option Settings := do
  pure {
    storage :=
      ← v.part "storage" 0 default.storage
        StorageSettings.ofConfig,
    logging :=
      ← v.part "logging" 1 default.logging
        LoggingSettings.ofConfig }

------------------------------------------------------------
-- Loading
------------------------------------------------------------

def environmentEntries
    (environment : List (String × String)) :
    List (String × Config) :=
  environment.filterMap fun (name, value) =>
    environmentEntry name value

/- The tree of a file and of the environment. -/
def settingsTree
    (file : Option SettingsFile)
    (environment : List (String × String)) :
    Except SettingsFault Config := do
  let entries ← match file with
    | none => .ok []
    | some f => f.entries
  .ok (((Config.table []).merge entries).merge
    (environmentEntries environment))

/- The settings from a file and the environment. -/
def Settings.load
    (file : Option SettingsFile)
    (environment : List (String × String)) :
    Except StoreError Settings :=
  match settingsTree file environment with
  | .error fault => .error (.config fault.message)
  | .ok tree =>
      match Settings.ofConfig tree with
      | some s => .ok s
      | none => .error (.config SettingsFault.misfit.message)

end Factbase
