import Factbase.Proofs.Data.Entries
import Factbase.Settings.Load

/-
  The trees of settings files.

  Whatever its format, the tree of a file has each key of a
  table once, in ascending order, however deep the table lies.
  A JSON text may repeat a key, of which only the last value is
  kept.  A TOML text may come back to a table, but every line
  puts a part where there is none yet, or opens the one that is
  there.

  Key definitions include:
    * `Config.Ordered`
    * `Toml.Node.Ordered`

  Main declarations:
    * `Config.ordered_ofTree`
    * `Toml.Node.Ordered.put`
    * `Toml.ordered_readLinesWithin`
    * `SettingsFile.ordered_entries`
-/

namespace Factbase

------------------------------------------------------------
-- Trees in Order
------------------------------------------------------------

/- A value that is written as one word or one string. -/
def Config.isScalar : Config → Bool
  | .bool _ => true
  | .integer _ => true
  | .float _ => true
  | .text _ => true
  | _ => false

/- The keys of every table in a tree ascend. -/
inductive Config.Ordered : Config → Prop where
  | null : Ordered .null
  | scalar {v : Config} (hScalar : v.isScalar = true) : Ordered v
  | list
      {items : List Config}
      (hItems : ∀ v ∈ items, Ordered v) :
      Ordered (.list items)
  | table
      {entries : List (String × Config)}
      (hSorted : Entries.Sorted entries)
      (hEntries : ∀ e ∈ entries, Ordered e.2) :
      Ordered (.table entries)

@[simp] theorem Config.entries_table
    (entries : List (String × Config)) :
    (Config.table entries).entries = entries := rfl

/- A scalar has no entries. -/
theorem Config.entries_of_isScalar
    {v : Config}
    (hScalar : v.isScalar = true) : v.entries = [] := by
  cases v with
  | table => cases hScalar
  | _ => rfl

/- The keys of an ordered table ascend. -/
theorem Config.Ordered.sorted_entries
    {tree : Config}
    (hOrdered : tree.Ordered) : Entries.Sorted tree.entries := by
  cases hOrdered with
  | table hSorted hEntries => exact hSorted
  | null | list => exact List.Pairwise.nil
  | scalar hScalar =>
      rw [entries_of_isScalar hScalar]
      exact List.Pairwise.nil

/- A part of an ordered tree is ordered. -/
theorem Config.Ordered.of_find?
    {tree part : Config}
    (hOrdered : tree.Ordered)
    {key : String}
    (hFound : tree.entries.find? key = some part) :
    part.Ordered := by
  have hMember := Entries.mem_of_find?_eq_some hFound
  cases hOrdered with
  | table hSorted hEntries => exact hEntries _ hMember
  | null | list => cases hMember
  | scalar hScalar =>
      rw [entries_of_isScalar hScalar] at hMember
      cases hMember

------------------------------------------------------------
-- JSON
------------------------------------------------------------

namespace Config

mutual

/- The induction follows the tree. -/
theorem ordered_ofTree : ∀ t : Json.Tree, (ofTree t).Ordered
  | .null => by
      rw [ofTree]
      exact .null
  | .bool b => by
      rw [ofTree]
      exact .scalar rfl
  | .number (.natural n) => by
      rw [ofTree]
      exact .scalar rfl
  | .number (.negative n) => by
      rw [ofTree]
      exact .scalar rfl
  | .number (.float x) => by
      rw [ofTree]
      exact .scalar rfl
  | .text s => by
      rw [ofTree]
      exact .scalar rfl
  | .list ts => by
      rw [ofTree]
      exact .list (ordered_ofTrees ts)
  | .object ms => by
      rw [ofTree]
      exact .table (Entries.sorted_ofList _) fun e hMember =>
        ordered_ofMembers ms e (Entries.mem_of_mem_ofList hMember)

/- The items of a JSON list are ordered, one by one. -/
theorem ordered_ofTrees :
    ∀ ts : List Json.Tree, ∀ v ∈ ofTrees ts, v.Ordered
  | [] => by
      rw [ofTrees]
      exact fun v hMember => absurd hMember List.not_mem_nil
  | t :: ts => by
      rw [ofTrees, List.forall_mem_cons]
      exact ⟨ordered_ofTree t, ordered_ofTrees ts⟩

/-
  So are the members of a JSON object, whose keys are then put
  in order.
-/
theorem ordered_ofMembers :
    ∀ ms : List (String × Json.Tree),
      ∀ e ∈ ofMembers ms, e.2.Ordered
  | [] => by
      rw [ofMembers]
      exact fun e hMember => absurd hMember List.not_mem_nil
  | (k, t) :: ms => by
      rw [ofMembers, List.forall_mem_cons]
      exact ⟨ordered_ofTree t, ordered_ofMembers ms⟩

end

end Config

/- What is read from a JSON file is ordered. -/
theorem ordered_jsonEntries
    {text : String}
    {entries : Entries Config}
    (hRead : jsonEntries text = some entries) :
    (Config.table entries).Ordered := by
  unfold jsonEntries at hRead
  split at hRead
  · cases hRead
    exact .table (Entries.sorted_ofList _) fun e hMember =>
      Config.ordered_ofMembers _ e
        (Entries.mem_of_mem_ofList hMember)
  · cases hRead

namespace Toml

------------------------------------------------------------
-- Nodes
------------------------------------------------------------

namespace Node

/- The keys of every table at or below a node ascend. -/
inductive Ordered : Node → Prop where
  | value {v : Config} (hValue : v.Ordered) : Ordered (.value v)
  | table
      {origin : Origin}
      {entries : List (String × Node)}
      (hSorted : Entries.Sorted entries)
      (hEntries : ∀ e ∈ entries, Ordered e.2) :
      Ordered (.table origin entries)
  | tables
      {items : List (List (String × Node))}
      (hSorted : ∀ entries ∈ items, Entries.Sorted entries)
      (hEntries : ∀ entries ∈ items, ∀ e ∈ entries,
        Ordered e.2) :
      Ordered (.tables items)

variable {node part : Node}

/- The keys of an ordered node ascend. -/
theorem Ordered.sorted_entries (hNode : node.Ordered) :
    Entries.Sorted node.entries := by
  cases hNode with
  | value hValue => exact List.Pairwise.nil
  | table hSorted hEntries => exact hSorted
  | @tables items hSorted hEntries =>
      cases items with
      | nil => exact List.Pairwise.nil
      | cons entries items => exact hSorted _ List.mem_cons_self

/- Each part of an ordered node is ordered. -/
theorem Ordered.mem_entries
    (hNode : node.Ordered) :
    ∀ e ∈ node.entries, e.2.Ordered := by
  cases hNode with
  | value hValue =>
      exact fun e hMember => absurd hMember List.not_mem_nil
  | table hSorted hEntries => exact hEntries
  | @tables items hSorted hEntries =>
      cases items with
      | nil => exact fun e hMember => absurd hMember List.not_mem_nil
      | cons entries items => exact hEntries _ List.mem_cons_self

/- In particular, a part that is looked up. -/
theorem Ordered.of_find?
    (hNode : node.Ordered)
    {key : String}
    (hFound : node.entries.find? key = some part) :
    part.Ordered :=
  hNode.mem_entries _ (Entries.mem_of_find?_eq_some hFound)

/- What every line does to the nodes that its key leads to. -/
theorem Ordered.put
    (hNode : node.Ordered)
    (hPart : part.Ordered)
    (key : String) :
    (node.withEntries (node.entries.insert key part)).Ordered := by
  have hSorted := hNode.sorted_entries.insert key part
  have hEntries :
      ∀ e ∈ Entries.insert key part node.entries, e.2.Ordered := by
    intro e hMember
    rcases Entries.mem_insert hMember with rfl | hOld
    · exact hPart
    · exact hNode.mem_entries e hOld
  cases hNode with
  | value hValue => exact .value hValue
  | table => exact .table hSorted hEntries
  | @tables items hItems hParts =>
      cases items with
      | nil => exact .tables hItems hParts
      | cons entries items =>
          rw [List.forall_mem_cons] at hItems hParts
          exact .tables
            (List.forall_mem_cons.mpr ⟨hSorted, hItems.2⟩)
            (List.forall_mem_cons.mpr ⟨hEntries, hParts.2⟩)

theorem ordered_empty (origin : Origin) :
    (Node.table origin []).Ordered :=
  .table List.Pairwise.nil nofun

/- What a header leads through is ordered, new or old. -/
theorem ordered_through
    {more : Bool}
    {found : Option Node}
    (hFound : ∀ old ∈ found, old.Ordered)
    (hThrough : through more found = some part) :
    part.Ordered := by
  rcases found with _ | _ | ⟨origin, entries⟩ | items
  · cases hThrough
    exact ordered_empty _
  · cases hThrough
  · have hOld := hFound _ rfl
    cases hOld with
    | table hSorted hEntries =>
        cases origin <;> cases hThrough <;>
          exact .table hSorted hEntries
  · cases more <;> cases hThrough
    exact hFound _ rfl

/- The induction is on the key; it passes through tables. -/
theorem ordered_set
    {v : Config}
    (hValue : v.Ordered)
    {key : List String}
    {node changed : Node}
    (hNode : node.Ordered)
    (hSet : set v key node = some changed) :
    changed.Ordered := by
  induction key generalizing node changed with
  | nil => cases hSet
  | cons k ks ih =>
      cases ks with
      | nil =>
          rw [set] at hSet
          split at hSet
          · cases hSet
            exact hNode.put (.value hValue) k
          · cases hSet
      | cons l ls =>
          simp only [set, Option.bind_eq_bind,
            Option.bind_eq_some_iff, Option.pure_def,
            Option.some.injEq] at hSet
          rcases hSet with ⟨part, hThrough, next, hNext, rfl⟩
          have hPart := ordered_through
            (fun old hOld => hNode.of_find? hOld) hThrough
          exact hNode.put (ih hPart hNext) k

/- The induction is on the header; the change is at its end. -/
theorem ordered_reach
    {change : Option Node → Option Node}
    (hChange : ∀ found part, (∀ old ∈ found, old.Ordered) →
      change found = some part → part.Ordered)
    {header : List String}
    {node changed : Node}
    (hNode : node.Ordered)
    (hReach : reach change header node = some changed) :
    changed.Ordered := by
  induction header generalizing node changed with
  | nil => cases hReach
  | cons k ks ih =>
      cases ks with
      | nil =>
          simp only [reach, Option.bind_eq_bind,
            Option.bind_eq_some_iff, Option.pure_def,
            Option.some.injEq] at hReach
          rcases hReach with ⟨part, hPart, rfl⟩
          exact hNode.put
            (hChange _ _ (fun old hOld => hNode.of_find? hOld)
              hPart) k
      | cons l ls =>
          simp only [reach, Option.bind_eq_bind,
            Option.pure_def] at hReach
          split at hReach
          · simp only [Option.bind_eq_some_iff,
              Option.some.injEq] at hReach
            rcases hReach with ⟨next, hNext, rfl⟩
            refine hNode.put (ih ?_ hNext) k
            cases hFound : node.entries.find? k with
            | none => exact ordered_empty _
            | some part => exact hNode.of_find? hFound
          · cases hReach

/-
  A header for a table keeps the order.  The induction is on the
  keys of the header.
-/
theorem ordered_define
    {header : List String}
    {changed : Node}
    (hNode : node.Ordered)
    (hDefine : define header node = some changed) :
    changed.Ordered := by
  refine ordered_reach ?_ hNode hDefine
  intro found part hFound hPart
  rcases found with _ | _ | ⟨_ | _ | _, entries⟩ | items <;>
    cases hPart
  · exact ordered_empty _
  · cases hFound _ rfl with
    | table hSorted hEntries => exact .table hSorted hEntries

/- So does a header for one more table of a list. -/
theorem ordered_append
    {header : List String}
    {changed : Node}
    (hNode : node.Ordered)
    (hAppend : append header node = some changed) :
    changed.Ordered := by
  refine ordered_reach ?_ hNode hAppend
  intro found part hFound hPart
  rcases found with _ | _ | _ | items <;> cases hPart
  · exact .tables
      (List.forall_mem_singleton.mpr List.Pairwise.nil)
      (List.forall_mem_singleton.mpr nofun)
  · cases hFound _ rfl with
    | tables hSorted hEntries =>
        exact .tables
          (List.forall_mem_cons.mpr
            ⟨List.Pairwise.nil, hSorted⟩)
          (List.forall_mem_cons.mpr ⟨nofun, hEntries⟩)

/-
  So does a value that is set under a key.  The induction is on
  the tables that lead to it.
-/
theorem ordered_setUnder
    {v : Config}
    (hValue : v.Ordered)
    {key header : List String}
    {node changed : Node}
    (hNode : node.Ordered)
    (hSet : setUnder v key header node = some changed) :
    changed.Ordered := by
  induction header generalizing node changed with
  | nil => exact ordered_set hValue hNode hSet
  | cons k ks ih =>
      simp only [setUnder, Option.bind_eq_bind,
        Option.bind_eq_some_iff, Option.pure_def,
        Option.some.injEq] at hSet
      rcases hSet with ⟨part, hFound, next, hNext, rfl⟩
      exact hNode.put (ih (hNode.of_find? hFound) hNext) k

/- The entries of a node have the keys of the node. -/
theorem keys_toEntries (entries : List (String × Node)) :
    (toEntries entries).map Prod.fst = entries.map Prod.fst := by
  induction entries with
  | nil => rw [toEntries, List.map_nil, List.map_nil]
  | cons e entries ih =>
      rw [toEntries, List.map_cons, List.map_cons, ih]

mutual

/- The induction follows the node. -/
theorem Ordered.toConfig :
    ∀ {node : Node}, node.Ordered → node.toConfig.Ordered
  | .value v, hNode => by
      rw [Node.toConfig]
      cases hNode with
      | value hValue => exact hValue
  | .table origin entries, hNode => by
      rw [Node.toConfig]
      cases hNode with
      | table hSorted hEntries =>
          exact .table (hSorted.of_keys_eq (keys_toEntries _))
            (ordered_toEntries hEntries)
  | .tables items, hNode => by
      rw [Node.toConfig]
      cases hNode with
      | tables hSorted hEntries =>
          refine .list fun v hMember => ?_
          exact ordered_toItems hSorted hEntries v
            (List.mem_reverse.mp hMember)

/- The parts of a node give ordered parts of a tree. -/
theorem ordered_toEntries :
    ∀ {entries : List (String × Node)},
      (∀ e ∈ entries, e.2.Ordered) →
        ∀ e ∈ toEntries entries, e.2.Ordered
  | [], _ => by
      rw [toEntries]
      exact nofun
  | (k, node) :: entries, hEntries => by
      rw [List.forall_mem_cons] at hEntries
      rw [toEntries, List.forall_mem_cons]
      exact ⟨hEntries.1.toConfig, ordered_toEntries hEntries.2⟩

/- So do the tables of a list, each of which has its own order. -/
theorem ordered_toItems :
    ∀ {items : List (List (String × Node))},
      (∀ entries ∈ items, Entries.Sorted entries) →
        (∀ entries ∈ items, ∀ e ∈ entries, e.2.Ordered) →
          ∀ v ∈ toItems items, v.Ordered
  | [], _, _ => by
      rw [toItems]
      exact nofun
  | entries :: items, hSorted, hEntries => by
      rw [List.forall_mem_cons] at hSorted hEntries
      rw [toItems, List.forall_mem_cons]
      exact ⟨.table (hSorted.1.of_keys_eq (keys_toEntries _))
          (ordered_toEntries hEntries.1),
        ordered_toItems hSorted.2 hEntries.2⟩

end

end Node

------------------------------------------------------------
-- Values
------------------------------------------------------------

/-
  A word stands for a scalar, or for a date, which is a table of
  one entry.
-/
theorem ordered_scalarOf?
    {word : List Char}
    {v : Config}
    (hScalar : scalarOf? word = some v) : v.Ordered := by
  unfold scalarOf? at hScalar
  split at hScalar
  · cases hScalar
    exact .scalar rfl
  split at hScalar
  · cases hScalar
    exact .scalar rfl
  simp only [Option.or_eq_some_iff, Option.map_eq_some_iff]
    at hScalar
  rcases hScalar with ⟨n, _, rfl⟩ | ⟨_, ⟨x, _, rfl⟩ | ⟨_, cs, _, rfl⟩⟩
  · exact .scalar rfl
  · exact .scalar rfl
  · refine .table (List.pairwise_singleton _ _) ?_
    exact List.forall_mem_singleton.mpr (.scalar rfl)

/- What the readers of values, items and pairs give with some fuel. -/
structure ReadsOrdered (fuel : Nat) : Prop where
  value :
    ∀ {depth cs v rest},
      readValueWithin fuel depth cs = some (v, rest) → v.Ordered
  items :
    ∀ {depth cs vs rest},
      readItems fuel depth cs = some (vs, rest) →
        ∀ v ∈ vs, v.Ordered
  pairs :
    ∀ {depth node cs changed rest}, node.Ordered →
      readPairs fuel depth node cs = some (changed, rest) →
        changed.Ordered

namespace ReadsOrdered

variable {fuel depth : Nat}
variable {cs rest : List Char}

variable (hFuel : ReadsOrdered fuel)
include hFuel

/-
  A value that takes one more step to read is ordered if those
  that take fewer are.
-/
theorem value_succ
    {v : Config}
    (hRead : readValueWithin (fuel + 1) depth cs =
      some (v, rest)) : v.Ordered := by
  simp only [readValueWithin] at hRead
  split at hRead
  · rcases Option.map_eq_some_iff.mp hRead with ⟨_, _, hText⟩
    cases hText
    exact .scalar rfl
  · rcases Option.map_eq_some_iff.mp hRead with ⟨_, _, hText⟩
    cases hText
    exact .scalar rfl
  · cases hRead
  · cases hRead
  · rcases Option.map_eq_some_iff.mp hRead with ⟨_, hItems, hList⟩
    cases hList
    exact .list (hFuel.items hItems)
  · rcases Option.map_eq_some_iff.mp hRead with ⟨_, hPairs, hTable⟩
    cases hTable
    exact (hFuel.pairs (Node.ordered_empty _) hPairs).toConfig
  · rw [readScalarValue] at hRead
    simp only [Option.bind_eq_bind, Option.bind_eq_some_iff,
      Option.pure_def, Option.some.injEq] at hRead
    rcases hRead with ⟨_, hScalar, hSame⟩
    cases hSame
    exact ordered_scalarOf? hScalar

/- So are the items of a list that takes one more step. -/
theorem items_succ
    {vs : List Config}
    (hRead : readItems (fuel + 1) depth cs = some (vs, rest)) :
    ∀ v ∈ vs, v.Ordered := by
  simp only [readItems] at hRead
  split at hRead
  · cases hRead
    exact nofun
  · simp only [Option.bind_eq_bind, Option.bind_eq_some_iff]
      at hRead
    rcases hRead with ⟨_, hFirst, hMore⟩
    split at hMore
    · cases hMore
      exact List.forall_mem_singleton.mpr (hFuel.value hFirst)
    · simp only [Option.bind_eq_some_iff, Option.pure_def,
        Option.some.injEq] at hMore
      rcases hMore with ⟨_, hItems, hSame⟩
      cases hSame
      exact List.forall_mem_cons.mpr
        ⟨hFuel.value hFirst, hFuel.items hItems⟩
    · cases hMore

/- So is the inline table of the pairs that take one more step. -/
theorem pairs_succ
    {node changed : Node}
    (hNode : node.Ordered)
    (hRead : readPairs (fuel + 1) depth node cs =
      some (changed, rest)) : changed.Ordered := by
  simp only [readPairs] at hRead
  split at hRead
  · cases hRead
    exact hNode
  · simp only [Option.bind_eq_bind, Option.bind_eq_some_iff]
      at hRead
    rcases hRead with ⟨_, _, hMore⟩
    split at hMore
    · simp only [Option.bind_eq_some_iff] at hMore
      rcases hMore with ⟨_, hValue, next, hSet, hMore⟩
      have hNext :=
        Node.ordered_set (hFuel.value hValue) hNode hSet
      split at hMore
      · cases hMore
        exact hNext
      · exact hFuel.pairs hNext hMore
      · cases hMore
    · cases hMore

end ReadsOrdered

/- The induction is on the fuel, for all three at once. -/
theorem readsOrdered (fuel : Nat) : ReadsOrdered fuel := by
  induction fuel with
  | zero =>
      refine ⟨?_, ?_, ?_⟩
      · intro depth cs v rest hRead
        rw [readValueWithin] at hRead
        cases hRead
      · intro depth cs vs rest hRead
        rw [readItems] at hRead
        cases hRead
      · intro depth node cs changed rest _ hRead
        rw [readPairs] at hRead
        cases hRead
  | succ fuel ih =>
      exact ⟨ih.value_succ, ih.items_succ, ih.pairs_succ⟩

------------------------------------------------------------
-- Lines
------------------------------------------------------------

/- A line keeps the order of the document read so far. -/
theorem ordered_readLineOf
    {p next : Progress}
    {cs rest : List Char}
    (hRoot : p.root.Ordered)
    (hRead : readLineOf p cs = some (next, rest)) :
    next.root.Ordered := by
  rw [readLineOf.eq_def] at hRead
  split at hRead
  · simp only [Option.bind_eq_bind, Option.bind_eq_some_iff,
      Option.pure_def, Option.some.injEq] at hRead
    rcases hRead with ⟨_, _, root, hAppend, _, _, hSame⟩
    cases hSame
    exact Node.ordered_append hRoot hAppend
  · simp only [Option.bind_eq_bind, Option.bind_eq_some_iff,
      Option.pure_def, Option.some.injEq] at hRead
    rcases hRead with ⟨_, _, root, hDefine, _, _, hSame⟩
    cases hSame
    exact Node.ordered_define hRoot hDefine
  · simp only [Option.bind_eq_bind, Option.bind_eq_some_iff]
      at hRead
    rcases hRead with ⟨_, _, hMore⟩
    split at hMore
    · simp only [Option.bind_eq_some_iff, Option.pure_def,
        Option.some.injEq] at hMore
      rcases hMore with ⟨_, hValue, root, hSet, _, _, hSame⟩
      cases hSame
      exact Node.ordered_setUnder
        ((readsOrdered _).value hValue) hRoot hSet
    · cases hMore

/- The induction is on the fuel, one line after another. -/
theorem ordered_readLinesWithin
    {fuel : Nat}
    {p last : Progress}
    {cs : List Char}
    (hRoot : p.root.Ordered)
    (hRead : readLinesWithin fuel p cs = some last) :
    last.root.Ordered := by
  induction fuel generalizing p cs with
  | zero =>
      rw [readLinesWithin] at hRead
      cases hRead
  | succ fuel ih =>
      rw [readLinesWithin.eq_def] at hRead
      simp only at hRead
      split at hRead
      · cases hRead
        exact hRoot
      · simp only [Option.bind_eq_bind, Option.bind_eq_some_iff]
          at hRead
        rcases hRead with ⟨_, hLine, hMore⟩
        exact ih (ordered_readLineOf hRoot hLine) hMore

------------------------------------------------------------
-- Dates
------------------------------------------------------------

/- Dates do not change the keys of a table. -/
theorem keys_entriesWithDates
    {entries changed : List (String × Config)}
    (hDates : entriesWithDates entries = some changed) :
    changed.map Prod.fst = entries.map Prod.fst := by
  induction entries generalizing changed with
  | nil =>
      rw [entriesWithDates] at hDates
      cases hDates
      rfl
  | cons e entries ih =>
      simp only [entriesWithDates, Option.bind_eq_bind,
        Option.bind_eq_some_iff, Option.pure_def,
        Option.some.injEq] at hDates
      rcases hDates with ⟨v, _, rest, hRest, rfl⟩
      rw [List.map_cons, List.map_cons, ih hRest]

/- A table that is marked as a date is one, or is refused. -/
theorem ordered_of_dateTable
    {key : String}
    {v changed : Config}
    {entries : List (String × Config)}
    (hDate : key = dateKey)
    (hDates : withDates (.table ((key, v) :: entries)) =
      some changed) : changed.Ordered := by
  cases v <;> simp only [withDates, if_pos hDate,
    Option.map_eq_some_iff, reduceCtorEq] at hDates
  rcases hDates with ⟨_, _, rfl⟩
  exact .scalar rfl

mutual

/- The induction follows the value. -/
theorem ordered_withDates :
    ∀ {v changed : Config}, v.Ordered →
      withDates v = some changed → changed.Ordered
  | .table [], _, hOrdered, hDates =>
      Option.some.inj hDates ▸ hOrdered
  | .table ((key, v) :: entries), changed, hOrdered, hDates => by
      cases hOrdered with
      | scalar hScalar => cases hScalar
      | table hSorted hEntries =>
          rw [List.forall_mem_cons] at hEntries
          by_cases hDate : key = dateKey
          · exact ordered_of_dateTable hDate hDates
          · simp only [withDates, if_neg hDate,
              Option.bind_eq_bind, Option.bind_eq_some_iff,
              Option.pure_def, Option.some.injEq] at hDates
            rcases hDates with ⟨w, hFirst, rest, hRest, rfl⟩
            refine .table ?_ (List.forall_mem_cons.mpr
              ⟨ordered_withDates hEntries.1 hFirst,
                ordered_entriesWithDates hEntries.2 hRest⟩)
            refine hSorted.of_keys_eq ?_
            rw [List.map_cons, List.map_cons,
              keys_entriesWithDates hRest]
  | .list vs, changed, hOrdered, hDates => by
      cases hOrdered with
      | scalar hScalar => cases hScalar
      | list hItems =>
          simp only [withDates, Option.map_eq_some_iff] at hDates
          rcases hDates with ⟨_, hRest, rfl⟩
          exact .list (ordered_itemsWithDates hItems hRest)
  | .null, _, hOrdered, hDates =>
      Option.some.inj hDates ▸ hOrdered
  | .bool b, _, hOrdered, hDates =>
      Option.some.inj hDates ▸ hOrdered
  | .integer n, _, hOrdered, hDates =>
      Option.some.inj hDates ▸ hOrdered
  | .float x, _, hOrdered, hDates =>
      Option.some.inj hDates ▸ hOrdered
  | .text s, _, hOrdered, hDates =>
      Option.some.inj hDates ▸ hOrdered

/- The entries stay ordered when dates become texts. -/
theorem ordered_entriesWithDates :
    ∀ {entries changed : List (String × Config)},
      (∀ e ∈ entries, e.2.Ordered) →
        entriesWithDates entries = some changed →
          ∀ e ∈ changed, e.2.Ordered
  | [], _, _, hDates => by
      rw [entriesWithDates] at hDates
      cases hDates
      exact nofun
  | (key, v) :: entries, _, hEntries, hDates => by
      rw [List.forall_mem_cons] at hEntries
      simp only [entriesWithDates, Option.bind_eq_bind,
        Option.bind_eq_some_iff, Option.pure_def,
        Option.some.injEq] at hDates
      rcases hDates with ⟨w, hFirst, rest, hRest, rfl⟩
      exact List.forall_mem_cons.mpr
        ⟨ordered_withDates hEntries.1 hFirst,
          ordered_entriesWithDates hEntries.2 hRest⟩

/- So do the items of a list. -/
theorem ordered_itemsWithDates :
    ∀ {items changed : List Config},
      (∀ v ∈ items, v.Ordered) →
        itemsWithDates items = some changed →
          ∀ v ∈ changed, v.Ordered
  | [], _, _, hDates => by
      rw [itemsWithDates] at hDates
      cases hDates
      exact nofun
  | v :: items, _, hItems, hDates => by
      rw [List.forall_mem_cons] at hItems
      simp only [itemsWithDates, Option.bind_eq_bind,
        Option.bind_eq_some_iff, Option.pure_def,
        Option.some.injEq] at hDates
      rcases hDates with ⟨w, hFirst, rest, hRest, rfl⟩
      exact List.forall_mem_cons.mpr
        ⟨ordered_withDates hItems.1 hFirst,
          ordered_itemsWithDates hItems.2 hRest⟩

end

------------------------------------------------------------
-- Texts
------------------------------------------------------------

/- What is read from a TOML file is ordered. -/
theorem ordered_read
    {text : String}
    {entries : Entries Config}
    (hRead : read text = some entries) :
    (Config.table entries).Ordered := by
  simp only [read, Option.bind_eq_bind, Option.bind_eq_some_iff]
    at hRead
  rcases hRead with ⟨last, hLines, tree, hDates, hTable⟩
  have hRoot := ordered_readLinesWithin
    (Node.ordered_empty _) hLines
  have hTree := ordered_withDates hRoot.toConfig hDates
  split at hTable
  · cases hTable
    exact hTree
  · cases hTable

end Toml

------------------------------------------------------------
-- Files
------------------------------------------------------------

/- The tree of a file has each key of a table once, in order. -/
theorem SettingsFile.ordered_entries
    {f : SettingsFile}
    {entries : Entries Config}
    (hEntries : f.entries = .ok entries) :
    (Config.table entries).Ordered := by
  rw [SettingsFile.entries] at hEntries
  split at hEntries
  · cases hEntries
  split at hEntries
  · cases hEntries
  rename_i format _
  split at hEntries
  · cases hEntries
  rename_i found hRead
  cases hEntries
  cases format with
  | toml => exact Toml.ordered_read hRead
  | json => exact ordered_jsonEntries hRead

end Factbase
