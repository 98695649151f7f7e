import Factbase.Proofs.Data.Trees
import Factbase.Proofs.Settings.Trees
import Factbase.Proofs.Store.Actions
import Mathlib.Logic.Function.Basic

/-
  Settings from their layers.

  A file and the environment are merged leaf by leaf, so each
  setting is decided by itself: by its variable, else by the
  file, else by its default, which is the same wherever the file
  stops: without the section, in an empty one or in one that
  gives other settings only.

  A tree settles what each setting is given.  The tree of a file
  does, each variable changes that for its own setting, and what
  is read from a tree in the end is what the tree settles.

  Key definitions include:
    * `Setting`
    * `Setting.given?`
    * `Setting.filed?`
    * `FitsSettings`
    * `ChoosesVariables`
    * `Config.Settles`

  Main declarations:
    * `Config.find?_mergedAll`
    * `Config.Settles.putVariable`
    * `Config.settles_file`
    * `Config.Settles.environment`
    * `Config.Settles.ofConfig`
    * `Settings.load_each_by_itself`
-/

namespace Factbase

------------------------------------------------------------
-- Settings One by One
------------------------------------------------------------

inductive Setting where
  | path
  | collection
  | filter
deriving DecidableEq, Repr

namespace Setting

/- The section that a setting stands in. -/
def sectionName : Setting → String
  | .path => "storage"
  | .collection => "storage"
  | .filter => "logging"

/- The key of a setting in its section. -/
def key : Setting → String
  | .path => "path"
  | .collection => "collection"
  | .filter => "filter"

/- The environment variable of a setting. -/
def variableName : Setting → String
  | .path => "TRISTORE__STORAGE__PATH"
  | .collection => "TRISTORE__STORAGE__COLLECTION"
  | .filter => "TRISTORE__LOGGING__FILTER"

/- What a setting is; only the path may be nothing. -/
def value : Setting → Settings → Option String
  | .path, s => s.storage.path
  | .collection, s => some s.storage.collection
  | .filter, s => some s.logging.filter

/- The place of a setting in a tree. -/
def inTree? (x : Setting) (tree : Config) : Option Config :=
  (tree.entries.find? x.sectionName).bind fun fields =>
    fields.entries.find? x.key

/- What the entries of a file give for a setting, as text. -/
def filed?
    (x : Setting)
    (entries : Entries Config) : Option String :=
  (x.inTree? (.table entries)).bind Config.text?

/- A variable is that of a setting, in letters of any case. -/
def isNamed (x : Setting) (name : String) : Bool :=
  foldName name = foldName x.variableName

/- What the environment gives for a setting. -/
def given?
    (x : Setting)
    (environment : List (String × String)) : Option String :=
  (environment.find? fun v => x.isNamed v.1).map Prod.snd

end Setting

/- A key that is no way to a part of a value. -/
def IsPlainKey (key : String) : Prop :=
  '.' ∉ key.toList ∧ '[' ∉ key.toList

instance (key : String) : Decidable (IsPlainKey key) :=
  inferInstanceAs (Decidable (_ ∧ _))

/-
  The keys of a tree are plain, the sections that it has are
  tables, and the settings in them are scalars.  Other keys may
  have any values.
-/
structure FitsSettings (entries : Entries Config) : Prop where
  plain : ∀ e ∈ entries, IsPlainKey e.1
  sections :
    ∀ (x : Setting) (v : Config),
      entries.find? x.sectionName = some v →
        ∃ fields, v = .table fields
  scalars :
    ∀ (x : Setting) (v : Config),
      x.inTree? (.table entries) = some v → v.isScalar = true

/- A variable that is meant for settings, in letters of any case. -/
def isAddressed (name : String) : Bool :=
  environmentPrefix.isPrefixOf (foldName name).toList

/-
  Of the variables that are meant for settings, each is that of
  a setting, and no setting has two.
-/
structure ChoosesVariables
    (environment : List (String × String)) : Prop where
  known :
    ∀ v ∈ environment, isAddressed v.1 = true →
      ∃ x : Setting, x.isNamed v.1 = true
  once :
    ∀ x : Setting,
      environment.countP (fun v => x.isNamed v.1) ≤ 1

/- The entries of the file that is named, if one is. -/
def fileEntries :
    Option SettingsFile → Except SettingsFault (Entries Config)
  | none => .ok []
  | some f => f.entries

namespace Config

------------------------------------------------------------
-- Merging
------------------------------------------------------------

variable {tree : Config}

/- A change of an entry is seen under its key alone. -/
theorem find?_alterEntry
    (tree : Config)
    (key other : String)
    (change : Config → Config) :
    (tree.alterEntry key change).entries.find? other =
      if other = key then
        some (change ((tree.entries.find? key).getD .null))
      else tree.entries.find? other :=
  Entries.find?_insert key other _ tree.entries

/- A scalar replaces what it is merged into. -/
theorem merged_of_isScalar
    {v : Config}
    (hScalar : v.isScalar = true)
    (old : Config) : merged old v = v := by
  cases v with
  | null | list | table => cases hScalar
  | bool | integer | float | text => simp [merged]

/-
  Under each of its keys, a merged table has what is merged into
  what was there.  The induction is on the entries.
-/
theorem find?_mergedAll
    {entries : Entries Config}
    (hSorted : Entries.Sorted entries)
    (tree : Config)
    (key : String) :
    (mergedAll tree entries).entries.find? key =
      match entries.find? key with
      | some v => some
          (merged ((tree.entries.find? key).getD .null) v)
      | none => tree.entries.find? key := by
  induction entries generalizing tree with
  | nil => rfl
  | cons e entries ih =>
      rcases e with ⟨k, v⟩
      rcases List.pairwise_cons.mp hSorted with ⟨hFirst, hRest⟩
      rw [mergedAll, ih hRest, find?_alterEntry,
        Entries.find?_cons]
      by_cases hKey : key = k
      · subst hKey
        rw [Entries.Sorted.find?_eq_none hRest hFirst,
          if_pos rfl, if_pos rfl]
      · rw [if_neg hKey, if_neg hKey]

/- Nothing was there: each value is merged into nothing. -/
theorem find?_mergedAll_nil
    {entries : Entries Config}
    (hSorted : Entries.Sorted entries)
    (key : String) :
    (mergedAll (.table []) entries).entries.find? key =
      (entries.find? key).map (merged .null) := by
  rw [find?_mergedAll hSorted]
  cases entries.find? key <;> rfl

/- Entries merged into a table make a table. -/
theorem exists_table_mergedAll
    (entries base : List (String × Config)) :
    ∃ es, mergedAll (.table base) entries = .table es := by
  induction entries generalizing base with
  | nil =>
      rw [mergedAll]
      exact ⟨base, rfl⟩
  | cons e entries ih =>
      rw [mergedAll]
      exact ih _

/- A table merged into nothing is merged into no entries. -/
theorem merged_null_table (fields : List (String × Config)) :
    merged .null (.table fields) = mergedAll (.table []) fields := by
  rw [merged, if_pos rfl]

/- The value of a variable replaces that of its own setting. -/
theorem inTree?_alterEntry
    (x y : Setting)
    (tree value : Config) :
    y.inTree? (tree.alterEntry x.sectionName fun fields =>
        fields.alterEntry x.key fun _ => value) =
      if y = x then some value else y.inTree? tree := by
  rw [Setting.inTree?, find?_alterEntry]
  by_cases hSection : y.sectionName = x.sectionName
  · rw [if_pos hSection, Option.bind_some, find?_alterEntry]
    by_cases hKey : y.key = x.key
    · have hSame : y = x := by
        cases x <;> cases y <;>
          simp_all [Setting.sectionName, Setting.key]
      rw [if_pos hKey, if_pos hSame]
    · have hOther : y ≠ x := fun hSame => hKey (hSame ▸ rfl)
      rw [if_neg hKey, if_neg hOther, Setting.inTree?, hSection]
      cases tree.entries.find? x.sectionName <;> rfl
  · have hOther : y ≠ x := fun hSame => hSection (hSame ▸ rfl)
    rw [if_neg hSection, if_neg hOther, Setting.inTree?]

------------------------------------------------------------
-- Keys
------------------------------------------------------------

/- A plain key is no path, or a path of itself alone. -/
theorem parse?_of_isPlainKey
    {key : String}
    (hPlain : IsPlainKey key) :
    (KeyPath.parse? key).getD ⟨key, []⟩ = ⟨key, []⟩ := by
  have hSplit := List.takeWhile_append_dropWhile
    (p := KeyPath.isNameChar) (l := key.toList)
  cases hName : key.toList.takeWhile KeyPath.isNameChar with
  | nil => simp [KeyPath.parse?, KeyPath.name?, hName]
  | cons c cs =>
      rw [hName] at hSplit
      cases hRest : key.toList.dropWhile KeyPath.isNameChar with
      | nil =>
          rw [hRest, List.append_nil] at hSplit
          have hKey : key = .ofList (c :: cs) := by
            rw [hSplit, String.ofList_toList]
          simp [KeyPath.parse?, KeyPath.name?, hName, hRest,
            KeyPath.steps?, ← hKey]
      | cons d ds =>
          have hMember : d ∈ key.toList := by
            rw [← hSplit, hRest]
            simp
          have hPoint : d ≠ '.' := fun hSame =>
            hPlain.1 (hSame ▸ hMember)
          have hBracket : d ≠ '[' := fun hSame =>
            hPlain.2 (hSame ▸ hMember)
          simp [KeyPath.parse?, KeyPath.name?, hName, hRest,
            KeyPath.steps?, hPoint, hBracket]

/- A key without a path in it names one entry. -/
theorem putKey_of_isPlainKey
    {key : String}
    (hPlain : IsPlainKey key)
    (tree value : Config) :
    tree.putKey key value =
      tree.alterEntry key fun old => merged old value := by
  rw [putKey, parse?_of_isPlainKey hPlain]
  rfl

theorem merge_cons
    (tree : Config)
    (key : String)
    (value : Config)
    (source : List (String × Config)) :
    tree.merge ((key, value) :: source) =
      (tree.putKey key value).merge source :=
  rfl

/- With plain keys, merging a source is merging its table. -/
theorem merge_of_isPlainKey
    {entries : Entries Config}
    (hPlain : ∀ e ∈ entries, IsPlainKey e.1)
    (tree : Config) :
    tree.merge entries = mergedAll tree entries := by
  induction entries generalizing tree with
  | nil => rw [mergedAll, merge, List.foldl_nil]
  | cons e entries ih =>
      rcases e with ⟨k, v⟩
      rw [List.forall_mem_cons] at hPlain
      rw [merge_cons, ih hPlain.2, mergedAll,
        putKey_of_isPlainKey hPlain.1]

/- The key of a variable leads to its setting. -/
theorem putKey_variable
    (x : Setting)
    (tree : Config)
    (value : String) :
    tree.putKey (x.sectionName ++ "." ++ x.key) (.text value) =
      tree.alterEntry x.sectionName fun fields =>
        fields.alterEntry x.key fun _ => .text value := by
  have hPath : KeyPath.parse? (x.sectionName ++ "." ++ x.key) =
      some ⟨x.sectionName, [.child x.key]⟩ := by
    cases x <;> rfl
  have hMerged : ∀ old, merged old (.text value) = .text value :=
    merged_of_isScalar rfl
  rw [putKey, hPath, Option.getD_some, putAt, alterAt]
  simp only [alterAt, hMerged]

------------------------------------------------------------
-- Layers
------------------------------------------------------------

/-
  A tree settles what each setting is given: its sections are
  tables, and the settings in them are scalars with those texts.
-/
structure Settles
    (tree : Config)
    (source : Setting → Option String) : Prop where
  isTable : ∃ entries, tree = .table entries
  sections :
    ∀ (x : Setting) (v : Config),
      tree.entries.find? x.sectionName = some v →
        ∃ fields, v = .table fields
  scalars :
    ∀ (x : Setting) (v : Config),
      x.inTree? tree = some v → v.isScalar = true
  texts : ∀ x : Setting, (x.inTree? tree).bind text? = source x

/- The settings of a file are where they were once it is merged. -/
theorem inTree?_mergedAll_nil
    {entries : Entries Config}
    (hOrdered : (Config.table entries).Ordered)
    (hFits : FitsSettings entries)
    (x : Setting) :
    x.inTree? (mergedAll (.table []) entries) =
      x.inTree? (.table entries) := by
  have hSorted : Entries.Sorted entries := hOrdered.sorted_entries
  have hScalars := hFits.scalars x
  simp only [Setting.inTree?, entries_table] at hScalars ⊢
  rw [find?_mergedAll_nil hSorted]
  cases hFound : entries.find? x.sectionName with
  | none => rfl
  | some old =>
      rcases hFits.sections x old hFound with ⟨fields, rfl⟩
      have hFields : Entries.Sorted fields :=
        (hOrdered.of_find? hFound).sorted_entries
      rw [hFound, Option.bind_some, entries_table] at hScalars
      rw [Option.map_some, Option.bind_some, Option.bind_some,
        entries_table, merged_null_table,
        find?_mergedAll_nil hFields]
      cases hValue : Entries.find? x.key fields with
      | none => rfl
      | some v =>
          rw [Option.map_some,
            merged_of_isScalar (hScalars v hValue)]

/- The tree of a file settles what the file gives. -/
theorem settles_file
    {entries : Entries Config}
    (hOrdered : (Config.table entries).Ordered)
    (hFits : FitsSettings entries) :
    ((Config.table []).merge entries).Settles (·.filed? entries) := by
  have hSorted : Entries.Sorted entries := hOrdered.sorted_entries
  rw [merge_of_isPlainKey hFits.plain]
  refine ⟨exists_table_mergedAll _ _, ?_, ?_, ?_⟩
  · intro x v hFound
    rw [find?_mergedAll_nil hSorted] at hFound
    rcases Option.map_eq_some_iff.mp hFound with ⟨old, hOld, rfl⟩
    rcases hFits.sections x old hOld with ⟨fields, rfl⟩
    rw [merged_null_table]
    exact exists_table_mergedAll _ _
  · intro x v hFound
    rw [inTree?_mergedAll_nil hOrdered hFits] at hFound
    exact hFits.scalars x v hFound
  · intro x
    rw [inTree?_mergedAll_nil hOrdered hFits]
    rfl

/- A variable settles its own setting. -/
theorem Settles.putVariable
    {source : Setting → Option String}
    (hTree : tree.Settles source)
    (x : Setting)
    (value : String) :
    (tree.putKey (x.sectionName ++ "." ++ x.key)
        (.text value)).Settles
      (Function.update source x (some value)) := by
  rw [putKey_variable]
  refine ⟨⟨_, rfl⟩, ?_, ?_, ?_⟩
  · intro y v hFound
    rw [find?_alterEntry] at hFound
    split_ifs at hFound
    · cases hFound
      exact ⟨_, rfl⟩
    · exact hTree.sections y v hFound
  · intro y v hFound
    rw [inTree?_alterEntry] at hFound
    split_ifs at hFound
    · cases hFound
      rfl
    · exact hTree.scalars y v hFound
  · intro y
    rw [inTree?_alterEntry]
    by_cases hSame : y = x
    · rw [if_pos hSame, hSame, Function.update_self]
      rfl
    · rw [if_neg hSame, Function.update_of_ne hSame]
      exact hTree.texts y

end Config

------------------------------------------------------------
-- Environment
------------------------------------------------------------

/- A variable names a setting in letters of any case. -/
theorem Setting.isNamed_iff
    (x : Setting)
    (name : String) :
    x.isNamed name = true ↔
      name.toList.map Char.toLower =
        x.variableName.toList.map Char.toLower := by
  rw [isNamed, decide_eq_true_iff, ← String.toList_inj,
    toList_foldName, toList_foldName]

/- A name has no letter that only the environment folds. -/
theorem map_lowerCase
    {cs : List Char}
    (hPlain : '\u212a' ∉ cs.map Char.toLower) :
    cs.map lowerCase = cs.map Char.toLower := by
  apply List.map_congr_left
  intro c hMember
  have hKelvin : c ≠ '\u212a' := by
    rintro rfl
    exact hPlain (List.mem_map_of_mem hMember)
  rw [lowerCase, if_neg hKelvin]

/-
  A variable that names a setting leads to its section and key.
-/
theorem environmentEntry_of_isNamed
    {x : Setting}
    {name : String}
    (hNamed : x.isNamed name = true)
    (value : String) :
    environmentEntry name value =
      some (x.sectionName ++ "." ++ x.key, .text value) := by
  have hLower := (x.isNamed_iff name).mp hNamed
  have hPlain : '\u212a' ∉ name.toList.map Char.toLower := by
    rw [hLower]
    cases x <;> decide
  rw [environmentEntry, map_lowerCase hPlain, hLower]
  cases x <;> rfl

/-
  Where the start has no k, the lower case of the Kelvin sign
  makes no difference.
-/
theorem isPrefixOf_map_lowerCase
    {front cs : List Char}
    (hPlain : 'k' ∉ front ∧ '\u212a' ∉ front) :
    front.isPrefixOf (cs.map lowerCase) =
      front.isPrefixOf (cs.map Char.toLower) := by
  induction front generalizing cs with
  | nil => rfl
  | cons p front ih =>
      cases cs with
      | nil => rfl
      | cons c cs =>
          simp only [List.mem_cons, not_or] at hPlain
          have hFirst : (p == lowerCase c) = (p == c.toLower) := by
            by_cases hKelvin : c = '\u212a'
            · subst hKelvin
              have hLetter : lowerCase '\u212a' = 'k' := by decide
              have hSame : '\u212a'.toLower = '\u212a' := by decide
              rw [hLetter, hSame,
                beq_eq_false_iff_ne.mpr (Ne.symm hPlain.1.1),
                beq_eq_false_iff_ne.mpr (Ne.symm hPlain.2.1)]
            · rw [lowerCase, if_neg hKelvin]
          rw [List.map_cons, List.map_cons, List.isPrefixOf,
            List.isPrefixOf, hFirst, ih ⟨hPlain.1.2, hPlain.2.2⟩]

/- A variable with another start of its name is left aside. -/
theorem environmentEntry_of_not_isAddressed
    {name : String}
    (hOther : isAddressed name = false)
    (value : String) : environmentEntry name value = none := by
  rw [isAddressed, toList_foldName,
    ← isPrefixOf_map_lowerCase (by decide)] at hOther
  simp only [environmentEntry, hOther, Bool.false_eq_true,
    if_false]

/- The first variable that names a setting gives an entry. -/
theorem environmentEntries_of_isNamed
    {x : Setting}
    {name : String}
    (hNamed : x.isNamed name = true)
    (text : String)
    (environment : List (String × String)) :
    environmentEntries ((name, text) :: environment) =
      (x.sectionName ++ "." ++ x.key, .text text)
        :: environmentEntries environment :=
  List.filterMap_cons_some (environmentEntry_of_isNamed hNamed text)

/- Other variables give none. -/
theorem environmentEntries_of_not_isAddressed
    {name : String}
    (hOther : isAddressed name = false)
    (text : String)
    (environment : List (String × String)) :
    environmentEntries ((name, text) :: environment) =
      environmentEntries environment :=
  List.filterMap_cons_none
    (environmentEntry_of_not_isAddressed hOther text)

/- A variable belongs to one setting at most. -/
theorem Setting.eq_of_isNamed
    {x y : Setting}
    {name : String}
    (hNamed : x.isNamed name = true)
    (hNamed' : y.isNamed name = true) : x = y := by
  have hLower := ((x.isNamed_iff name).mp hNamed).symm.trans
    ((y.isNamed_iff name).mp hNamed')
  revert hLower
  cases x <;> cases y <;> decide

namespace ChoosesVariables

variable {v : String × String}
variable {environment : List (String × String)}

/- Fewer variables still choose each setting at most once. -/
theorem tail
    (hChoice : ChoosesVariables (v :: environment)) :
    ChoosesVariables environment := by
  refine ⟨(List.forall_mem_cons.mp hChoice.known).2, fun x => ?_⟩
  have hOnce := hChoice.once x
  rw [List.countP_cons] at hOnce
  omega

/- The variable of a setting is the only one that it has. -/
theorem given?_tail
    (hChoice : ChoosesVariables (v :: environment))
    {x : Setting}
    (hNamed : x.isNamed v.1 = true) :
    x.given? environment = none := by
  have hOnce := hChoice.once x
  rw [List.countP_cons, if_pos hNamed] at hOnce
  have hNone : environment.countP (fun v => x.isNamed v.1) = 0 := by
    omega
  rw [List.countP_eq_zero] at hNone
  rw [Setting.given?, List.find?_eq_none.mpr hNone, Option.map_none]

end ChoosesVariables

/- The first variable that names a setting gives its value. -/
theorem Setting.given?_cons
    (x : Setting)
    (v : String × String)
    (environment : List (String × String)) :
    x.given? (v :: environment) =
      if x.isNamed v.1 = true then some v.2
      else x.given? environment := by
  rw [Setting.given?, List.find?_cons]
  by_cases hNamed : x.isNamed v.1 = true
  · rw [hNamed, if_pos rfl]
    rfl
  · rw [Bool.eq_false_iff.mpr hNamed, if_neg Bool.false_ne_true]
    rfl

namespace Config.Settles

variable {tree : Config}
variable {source : Setting → Option String}

/-
  The environment settles what it gives, and leaves the rest.
  The induction is on the variables that are still to come.
-/
theorem environment
    {environment : List (String × String)}
    (hTree : tree.Settles source)
    (hChoice : ChoosesVariables environment) :
    (tree.merge (environmentEntries environment)).Settles
      fun x => (x.given? environment).or (source x) := by
  induction environment generalizing tree source with
  | nil => exact hTree
  | cons v environment ih =>
      rcases v with ⟨name, text⟩
      by_cases hKnown : ∃ x : Setting, x.isNamed name = true
      · rcases hKnown with ⟨x, hNamed⟩
        rw [environmentEntries_of_isNamed hNamed, merge_cons]
        have hNext := ih (hTree.putVariable x text) hChoice.tail
        convert hNext using 2 with y
        rw [Setting.given?_cons]
        by_cases hSame : y = x
        · subst hSame
          rw [if_pos hNamed, hChoice.given?_tail hNamed,
            Function.update_self, Option.some_or, Option.none_or]
        · have hNot : ¬ y.isNamed name = true := fun hNamed' =>
            hSame (Setting.eq_of_isNamed hNamed' hNamed)
          rw [if_neg hNot, Function.update_of_ne hSame]
      · have hOther : isAddressed name = false := by
          rw [Bool.eq_false_iff]
          exact fun hAddressed => hKnown
            (hChoice.known _ List.mem_cons_self hAddressed)
        rw [environmentEntries_of_not_isAddressed hOther]
        convert ih hTree hChoice.tail using 2 with y
        rw [Setting.given?_cons,
          if_neg fun hNamed => hKnown ⟨y, hNamed⟩]

end Config.Settles

------------------------------------------------------------
-- Settings of a Tree
------------------------------------------------------------

namespace Config

/-
  A part of a table is read under its name, or is the fallback.
-/
theorem part_table
    {α : Type}
    (entries : Entries Config)
    (name : String)
    (index : Nat)
    (fallback : α)
    (read : Config → Option α) :
    (Config.table entries).part name index fallback read =
      match entries.find? name with
      | none => some fallback
      | some v => read v := by
  rw [part]
  cases entries.find? name <;> rfl

/- Every scalar has a text, and is not left out as null. -/
theorem exists_text_of_isScalar
    {v : Config}
    (hScalar : v.isScalar = true) :
    ∃ text, v.text? = some text ∧
      v.optional? = some (some text) := by
  cases v with
  | null | list | table => cases hScalar
  | bool | integer | float | text => exact ⟨_, rfl, rfl⟩

namespace Settles

variable {entries : Entries Config}
variable {source : Setting → Option String}

variable (hTree : (Config.table entries).Settles source)
include hTree

/- A setting whose section is missing is given nothing. -/
theorem source_of_missing
    {x : Setting}
    (hMissing : entries.find? x.sectionName = none) :
    source x = none := by
  rw [← hTree.texts, Setting.inTree?, entries_table, hMissing]
  rfl

section Fields

variable {fields : Entries Config}
variable {x : Setting}

variable (hSection :
  entries.find? x.sectionName = some (.table fields))
include hSection

/- In its section, a setting is a scalar or it is missing. -/
theorem field_cases :
    fields.find? x.key = none ∧ source x = none ∨
      ∃ v text, fields.find? x.key = some v ∧
        source x = some text ∧ v.text? = some text ∧
          v.optional? = some (some text) := by
  have hPlace : x.inTree? (.table entries) = fields.find? x.key := by
    rw [Setting.inTree?, entries_table, hSection]
    rfl
  have hText := hTree.texts x
  have hScalar := hTree.scalars x
  rw [hPlace] at hText hScalar
  cases hFound : fields.find? x.key with
  | none =>
      rw [hFound] at hText
      exact .inl ⟨rfl, hText.symm⟩
  | some v =>
      rcases exists_text_of_isScalar (hScalar v hFound) with
        ⟨text, hSome, hOptional⟩
      rw [hFound, Option.bind_some, hSome] at hText
      exact .inr ⟨v, text, rfl, hText.symm, hSome, hOptional⟩

/- A setting with a text is its source, or else its default. -/
theorem part_text
    (index : Nat)
    (fallback : String) :
    (Config.table fields).part x.key index fallback text? =
      some ((source x).getD fallback) := by
  rw [part_table]
  rcases hTree.field_cases hSection with
    ⟨hMissing, hNone⟩ | ⟨v, text, hFound, hSome, hText, _⟩
  · rw [hMissing, hNone]
    rfl
  · rw [hFound, hSome]
    exact hText

/- A setting that may be absent is its source, if it has one. -/
theorem part_optional (index : Nat) :
    (Config.table fields).part x.key index none optional? =
      some (source x) := by
  rw [part_table]
  rcases hTree.field_cases hSection with
    ⟨hMissing, hNone⟩ | ⟨v, text, hFound, hSome, _, hOptional⟩
  · rw [hMissing, hNone]
  · rw [hFound, hSome]
    exact hOptional

end Fields

/- A section that is missing is read as an empty one. -/
theorem storage :
    (Config.table entries).part "storage" 0
        Settings.default.storage StorageSettings.ofConfig =
      some ⟨source .path,
        (source .collection).getD
          Settings.default.storage.collection⟩ := by
  rw [part_table]
  cases hFound : entries.find? "storage" with
  | none =>
      rw [hTree.source_of_missing (x := .path) hFound,
        hTree.source_of_missing (x := .collection) hFound]
      rfl
  | some v =>
      rcases hTree.sections .path v hFound with ⟨fields, rfl⟩
      have hPath : (Config.table fields).part "path" 0
            StorageSettings.default.path optional? =
          some (source .path) :=
        hTree.part_optional (x := .path) hFound 0
      have hCollection : (Config.table fields).part "collection" 1
            StorageSettings.default.collection text? =
          some ((source .collection).getD
            StorageSettings.default.collection) :=
        hTree.part_text (x := .collection) hFound 1 _
      simp only [StorageSettings.ofConfig, hPath, hCollection]
      rfl

/- The section of logging has the filter of its source. -/
theorem logging :
    (Config.table entries).part "logging" 1
        Settings.default.logging LoggingSettings.ofConfig =
      some ⟨(source .filter).getD
        Settings.default.logging.filter⟩ := by
  rw [part_table]
  cases hFound : entries.find? "logging" with
  | none =>
      rw [hTree.source_of_missing (x := .filter) hFound]
      rfl
  | some v =>
      rcases hTree.sections .filter v hFound with ⟨fields, rfl⟩
      have hFilter : (Config.table fields).part "filter" 0
            LoggingSettings.default.filter text? =
          some ((source .filter).getD
            LoggingSettings.default.filter) :=
        hTree.part_text (x := .filter) hFound 0 _
      simp only [LoggingSettings.ofConfig, hFilter]
      rfl

end Settles

/- What a tree settles is what is read from it. -/
theorem Settles.ofConfig
    {source : Setting → Option String}
    (hTree : tree.Settles source) :
    ∃ s, Settings.ofConfig tree = some s ∧
      ∀ x : Setting,
        x.value s = (source x).or (x.value .default) := by
  rcases hTree.isTable with ⟨entries, rfl⟩
  refine ⟨⟨⟨source .path, (source .collection).getD
    Settings.default.storage.collection⟩,
    ⟨(source .filter).getD Settings.default.logging.filter⟩⟩,
    ?_, ?_⟩
  · rw [Settings.ofConfig, hTree.storage, hTree.logging]
    rfl
  · intro x
    cases x with
    | path => exact Option.or_none.symm
    | collection =>
        simp only [Setting.value]
        cases source .collection <;> rfl
    | filter =>
        simp only [Setting.value]
        cases source .filter <;> rfl

end Config

------------------------------------------------------------
-- Loading
------------------------------------------------------------

/- Only without a path are collections kept in memory. -/
theorem StorageSettings.mode_eq_memory_iff
    (s : StorageSettings) : s.mode = .memory ↔ s.path = none := by
  cases hPath : s.path with
  | none => simp [mode, hPath]
  | some path => simp [mode, hPath]

/-
  Settings are loaded, and each is decided by itself: it is what
  its variable says, else what the file says, else the default,
  whichever other settings there are in its section.  Triples
  are kept in memory exactly if nothing gives a path.
-/
theorem Settings.load_each_by_itself
    {file : Option SettingsFile}
    {entries : Entries Config}
    {environment : List (String × String)}
    (hFile : fileEntries file = .ok entries)
    (hFits : FitsSettings entries)
    (hChoice : ChoosesVariables environment) :
    ∃ s, Settings.load file environment = .ok s ∧
      (∀ x : Setting, x.value s =
        ((x.given? environment).or (x.filed? entries)).or
          (x.value .default)) ∧
      (s.storage.mode = .memory ↔
        Setting.path.given? environment = none ∧
          Setting.path.filed? entries = none) := by
  have hOrdered : (Config.table entries).Ordered := by
    cases file with
    | none =>
        cases hFile
        exact .table List.Pairwise.nil (List.forall_mem_nil _)
    | some f => exact f.ordered_entries hFile
  have hTree :=
    (Config.settles_file hOrdered hFits).environment hChoice
  rcases hTree.ofConfig with ⟨s, hRead, hValues⟩
  refine ⟨s, ?_, hValues, ?_⟩
  · have hSource : settingsTree file environment =
        .ok (((Config.table []).merge entries).merge
          (environmentEntries environment)) := by
      cases file with
      | none =>
          cases hFile
          rfl
      | some f =>
          have hEntries : f.entries = .ok entries := hFile
          rw [settingsTree, hEntries]
          rfl
    rw [Settings.load, hSource]
    simp only [hRead]
  · have hPath : s.storage.path =
        ((Setting.path.given? environment).or
          (Setting.path.filed? entries)).or none :=
      hValues .path
    rw [StorageSettings.mode_eq_memory_iff, hPath, Option.or_none,
      Option.or_eq_none_iff]

/-
  A file gives the path, which is a number there, a variable
  gives the collection, and nothing gives the filter.
-/
theorem Settings.load_each_by_itself_of_layers :
    let file : Option SettingsFile :=
      some ⟨"facts.json", some
        "\x7b\"owner\":\"ann\",\"storage\":\x7b\"path\":7\x7d\x7d"⟩
    let entries : Entries Config :=
      [("owner", .text "ann"),
        ("storage", .table [("path", .integer 7)])]
    let environment :=
      [("HOME", "/root"), ("tristore__Storage__COLLECTION", "people")]
    fileEntries file = .ok entries ∧
      FitsSettings entries ∧
      ChoosesVariables environment ∧
      Settings.load file environment =
        .ok ⟨⟨some "7", "people"⟩, ⟨"info"⟩⟩ := by
  intro file entries environment
  have hFile : fileEntries file = .ok entries := by
    -- the text is that of a value, so it reads as the tree of that
    let v : Value := .map
      [("owner", .text "ann"), ("storage", .map [("path", .integer 7)])]
    have hTree : Json.readTree Json.deepest v.doc.write =
        .ok (v.tree, []) :=
      Value.readTree_write
        (by simp [v, Value.nodes, Value.nodesOfEntries, Value.IsFinite])
        (by decide)
    have hFormat : SettingsFormat.ofName? "facts.json" = some .json := by
      decide
    have hEntries : jsonEntries (.ofList v.doc.write) = some entries := by
      rw [jsonEntries, Json.readAll, String.toList_ofList, hTree]
      rfl
    have hText : withoutMark
        "\x7b\"owner\":\"ann\",\"storage\":\x7b\"path\":7\x7d\x7d" =
          .ofList v.doc.write := rfl
    simp only [file, fileEntries, SettingsFile.entries, hFormat,
      SettingsFormat.entries, hText, hEntries]
  have hFits : FitsSettings entries := by
    refine ⟨?_, ?_, ?_⟩
    · simp only [entries, List.forall_mem_cons]
      exact ⟨by decide, by decide, List.forall_mem_nil _⟩
    · intro x v hFound
      cases x with
      | path | collection =>
          exact ⟨_, (Option.some.inj hFound).symm⟩
      | filter => cases hFound
    · intro x v hFound
      cases x with
      | path =>
          cases hFound
          rfl
      | collection | filter => cases hFound
  have hHome : isAddressed "HOME" = false := by
    rw [isAddressed, toList_foldName]
    rfl
  have hNamed : Setting.collection.isNamed
      "tristore__Storage__COLLECTION" = true :=
    (Setting.isNamed_iff _ _).mpr (by decide)
  have hOnce : ∀ x : Setting,
      environment.countP (fun v => x.isNamed v.1) ≤ 1 := by
    intro x
    simp only [environment, List.countP_cons, Setting.isNamed_iff]
    cases x <;> decide
  have hGiven : ∀ x : Setting, x.given? environment =
      if x = .collection then some "people" else none := by
    intro x
    simp only [environment, Setting.given?_cons, Setting.isNamed_iff]
    cases x <;> rfl
  have hChoice : ChoosesVariables environment := by
    refine ⟨?_, hOnce⟩
    intro v hMember hAddressed
    rcases List.mem_pair.mp hMember with rfl | rfl
    · exact absurd hAddressed (Bool.eq_false_iff.mp hHome)
    · exact ⟨.collection, hNamed⟩
  rcases load_each_by_itself hFile hFits hChoice with
    ⟨s, hLoad, hValues, _⟩
  have hSettings : s = ⟨⟨some "7", "people"⟩, ⟨"info"⟩⟩ := by
    rcases s with ⟨⟨path, collection⟩, ⟨filter⟩⟩
    simp only [hGiven] at hValues
    have hPath : path = some "7" := hValues .path
    have hCollection : some collection = some "people" :=
      hValues .collection
    have hFilter : some filter = some "info" := hValues .filter
    rw [hPath, Option.some.inj hCollection, Option.some.inj hFilter]
  exact ⟨hFile, hFits, hChoice, hSettings ▸ hLoad⟩

end Factbase
