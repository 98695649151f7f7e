import Factbase.Proofs.Store.Reads
import Factbase.Proofs.Store.Writes
import Mathlib.Data.List.Forall2
import Mathlib.Data.Set.Basic

/-
  Runs of writes and deletes on one collection.

  A collection is a set of triples.  Every command that succeeds
  adds the triples that it states and removes those that it
  matches; one that fails does neither.  So what is listed after
  a run is the set that its history describes.

  Main declarations:
    * `Command`
    * `Command.effect`
    * `Command.Succeeds`
    * `Store.runAll`
    * `Command.on_action`
    * `Store.list_all_after_run`
-/

namespace Factbase

------------------------------------------------------------
-- Commands
------------------------------------------------------------

/- What changes the triples of a collection. -/
inductive Command where
  | set (subject predicate : String) (d : Datum)
  | setMany (subject predicate : String) (ds : List Datum)
  | setProperties
      (subject : String)
      (properties : List (String × List Datum))
  | deleteValue (subject predicate : String) (d : Datum)
  | deletePredicate (subject predicate : String)
  | deleteSubject (subject : String)

namespace Command

/- What a store does at a command. -/
def action (s : Store) : Command → Action Unit
  | .set subject predicate d => s.set subject predicate d
  | .setMany subject predicate ds =>
      s.setMany subject predicate ds
  | .setProperties subject properties =>
      s.setProperties subject properties
  | .deleteValue subject predicate d =>
      s.deleteValue subject predicate d
  | .deletePredicate subject predicate =>
      s.deletePredicate subject predicate
  | .deleteSubject subject => s.deleteSubject subject

------------------------------------------------------------
-- Meaning
------------------------------------------------------------

/- The triples that a command adds. -/
def Adds : Command → Triple → Prop
  | .set subject predicate d, t => t.States subject predicate d
  | .setMany subject predicate ds, t =>
      ∃ d ∈ ds, t.States subject predicate d
  | .setProperties subject properties, t =>
      ∃ property ∈ properties, ∃ d ∈ property.2,
        t.States subject property.1 d
  | _, _ => False

/- The triples that a command removes. -/
def Removes : Command → Triple → Prop
  | .deleteValue subject predicate d, t =>
      t.States subject predicate d
  | .deletePredicate subject predicate, t =>
      t.subject = subject ∧ t.predicate = predicate
  | .deleteSubject subject, t => t.subject = subject
  | _, _ => False

/- What a command that succeeds makes of a set of triples. -/
def effect
    (command : Command)
    (ts : Set Triple) : Set Triple :=
  {t | t ∈ ts ∧ ¬command.Removes t ∨ command.Adds t}

/- What a command makes of a set of triples, by its answer. -/
def leave
    (ts : Set Triple) :
    Command × Except StoreError Unit → Set Triple
  | (command, .ok _) => command.effect ts
  | (_, .error _) => ts

/-
  When a command succeeds: its data have encodings, and a batch
  is not inside a transaction, unless it has nothing to write.
-/
def Succeeds (inTransaction : Bool) : Command → Prop
  | .set _ _ d => ∃ v, encode d = .ok v
  | .setMany _ _ ds =>
      ds = [] ∨ inTransaction = false ∧
        ∀ d ∈ ds, ∃ v, encode d = .ok v
  | .setProperties _ properties =>
      inTransaction = false ∧
        ∀ property ∈ properties, ∀ d ∈ property.2,
          ∃ v, encode d = .ok v
  | .deleteValue _ _ d => ∃ v, encode d = .ok v
  | .deletePredicate _ _ => True
  | .deleteSubject _ => True

end Command

/- What a run of commands answers, and the connection after it. -/
def Store.runAll (s : Store) :
    List Command → Connection →
      List (Except StoreError Unit) × Connection
  | [], c => ([], c)
  | command :: commands, c =>
      let (answer, c) := (command.action s).on c
      let (answers, c) := s.runAll commands c
      (answer :: answers, c)

------------------------------------------------------------
-- One Command
------------------------------------------------------------

/-
  What one command does to the rows of a collection: it keeps
  them sound and leaves the triples that its answer says.
-/
structure Command.Performed
    (command : Command)
    (s : Store)
    (c : Connection)
    (rows : List Row)
    (answer : Except StoreError Unit)
    (c' : Connection)
    (rows' : List Row) : Prop where
  rows_after : c'.content.rows s.collection = .ok rows'
  inTransaction_after : c'.inTransaction = c.inTransaction
  sound : Row.Sound rows → Row.Sound rows'
  succeeds_iff : answer = .ok () ↔ command.Succeeds c.inTransaction
  mem_iff :
    ∀ t : Triple, t.row ∈ rows' ↔
      t ∈ leave {t | t.row ∈ rows} (command, answer)

namespace Command

variable {s : Store}
variable {c : Connection}
variable {rows : List Row}

/- A command that fails leaves the connection as it was. -/
theorem performed_of_error
    {command : Command}
    (hRows : c.content.rows s.collection = .ok rows)
    (e : StoreError)
    (hFails : ¬command.Succeeds c.inTransaction) :
    command.Performed s c rows (.error e) c rows where
  rows_after := hRows
  inTransaction_after := rfl
  sound := id
  succeeds_iff := by simp [hFails]
  mem_iff _ := Iff.rfl

/- A command that succeeds by a change of the rows. -/
theorem performed_of_alter
    {command : Command}
    (hRows : c.content.rows s.collection = .ok rows)
    {change : List Row → List Row}
    (hSucceeds : command.Succeeds c.inTransaction)
    (hSound : Row.Sound rows → Row.Sound (change rows))
    (hMember :
      ∀ t : Triple, t.row ∈ change rows ↔
        t ∈ command.effect {t | t.row ∈ rows}) :
    command.Performed s c rows (.ok ())
      (c.alter s.collection change) (change rows) where
  rows_after := Connection.rows_alter hRows change
  inTransaction_after := Connection.inTransaction_alter change
  sound := hSound
  succeeds_iff := by simp [hSucceeds]
  mem_iff := hMember

/- A command that succeeds by adding triples. -/
theorem performed_of_store
    {command : Command}
    (hRows : c.content.rows s.collection = .ok rows)
    (ts : List Triple)
    (hSucceeds : command.Succeeds c.inTransaction)
    (hAdds : ∀ t, t ∈ ts ↔ command.Adds t)
    (hRemoves : ∀ t, ¬command.Removes t) :
    command.Performed s c rows (.ok ())
      (c.store s.collection ts) (Row.upsertAll ts rows) where
  rows_after := Connection.rows_store hRows ts
  inTransaction_after := Connection.inTransaction_store ts
  sound := fun hSound => hSound.upsertAll ts
  succeeds_iff := by simp [hSucceeds]
  mem_iff t := by
    simp [leave, effect, hAdds, hRemoves]

/- A batch of values, which is not inside a transaction. -/
theorem performed_of_storeAll
    {command : Command}
    (hRows : c.content.rows s.collection = .ok rows)
    {subject : String}
    {pairs : List (String × Datum)}
    (hSucceeds :
      command.Succeeds c.inTransaction ↔
        ∀ pair ∈ pairs, ∃ v, encode pair.2 = .ok v)
    (hAdds :
      ∀ t, command.Adds t ↔
        ∃ pair ∈ pairs, t.States subject pair.1 pair.2)
    (hRemoves : ∀ t, ¬command.Removes t) :
    ∃ answer c' rows',
      c.storeAll s.collection (written subject pairs) =
        (answer, c') ∧
      command.Performed s c rows answer c' rows' := by
  rw [← written_eq_ok_iff subject] at hSucceeds
  cases hEnding : (written subject pairs).2 with
  | ok _ =>
      rw [Connection.storeAll_of_ok hEnding]
      refine ⟨_, _, _, rfl,
        performed_of_store hRows _ (hSucceeds.mpr hEnding) ?_
          hRemoves⟩
      intro t
      rw [hAdds, mem_written_iff hEnding]
  | error e =>
      rw [Connection.storeAll_of_error hEnding]
      refine ⟨_, _, _, rfl, performed_of_error hRows e ?_⟩
      rw [hSucceeds, hEnding]
      simp

/- A single value that is written if it has an encoding. -/
theorem performed_set
    (hRows : c.content.rows s.collection = .ok rows)
    (subject predicate : String)
    (d : Datum) :
    ∃ answer c' rows',
      (s.set subject predicate d).on c = (answer, c') ∧
      (Command.set subject predicate d).Performed
        s c rows answer c' rows' := by
  rw [Store.on_set hRows]
  cases hCode : encode d with
  | error e =>
      refine ⟨_, _, _, rfl, performed_of_error hRows e ?_⟩
      simp [Succeeds, hCode]
  | ok v =>
      refine ⟨_, _, _, rfl,
        performed_of_alter hRows ?_ ?_ ?_⟩
      · simp [Succeeds, hCode]
      · exact fun hSound => hSound.upsert _
      · intro t
        simp [effect, Adds, Removes, Triple.states_iff hCode,
          or_comm]

/- A deletion removes what it matches, and nothing else. -/
theorem performed_delete
    {command : Command}
    (hRows : c.content.rows s.collection = .ok rows)
    {doomed : Row → Bool}
    (hSucceeds : command.Succeeds c.inTransaction)
    (hAdds : ∀ t, ¬command.Adds t)
    (hRemoves :
      ∀ t : Triple, command.Removes t ↔ doomed t.row = true) :
    command.Performed s c rows (.ok ())
      (c.alter s.collection (Row.delete doomed))
      (Row.delete doomed rows) := by
  apply performed_of_alter hRows hSucceeds
  · exact fun hSound => hSound.delete doomed
  · intro t
    simp [effect, hAdds, hRemoves]

/- Several values of one predicate. -/
theorem performed_setMany
    (hRows : c.content.rows s.collection = .ok rows)
    (subject predicate : String)
    (ds : List Datum) :
    ∃ answer c' rows',
      (s.setMany subject predicate ds).on c = (answer, c') ∧
      (Command.setMany subject predicate ds).Performed
        s c rows answer c' rows' := by
  cases hTransaction : c.inTransaction with
  | false =>
      rw [Store.on_setMany hTransaction hRows]
      apply performed_of_storeAll hRows
      · cases ds <;> simp [Succeeds, hTransaction]
      · simp [Adds]
      · simp [Removes]
  | true =>
      cases ds with
      | nil =>
          refine ⟨.ok (), c, _, rfl,
            performed_of_store hRows [] ?_ ?_ ?_⟩
          · simp [Succeeds]
          · simp [Adds]
          · simp [Removes]
      | cons d ds =>
          refine ⟨_, _, _,
            Action.on_batch_open hTransaction _,
            performed_of_error hRows _ ?_⟩
          simp [Succeeds, hTransaction]

/- Values of several predicates. -/
theorem performed_setProperties
    (hRows : c.content.rows s.collection = .ok rows)
    (subject : String)
    (properties : List (String × List Datum)) :
    ∃ answer c' rows',
      (s.setProperties subject properties).on c =
        (answer, c') ∧
      (Command.setProperties subject properties).Performed
        s c rows answer c' rows' := by
  cases hTransaction : c.inTransaction with
  | false =>
      rw [Store.on_setProperties hTransaction hRows]
      apply performed_of_storeAll hRows
      · simp only [Succeeds, hTransaction, true_and,
          Prod.forall, mem_pairsOf_iff, forall_exists_index,
          and_imp]
        constructor
        · intro hEach predicate d ds hProperty hMember
          exact hEach predicate ds hProperty d hMember
        · intro hEach predicate ds hProperty d hMember
          exact hEach predicate d ds hProperty hMember
      · simp only [Adds, Prod.exists, mem_pairsOf_iff]
        grind
      · simp [Removes]
  | true =>
      refine ⟨_, _, _, Action.on_batch_open hTransaction _,
        performed_of_error hRows _ ?_⟩
      simp [Succeeds, hTransaction]

/- A single value that is removed if it has an encoding. -/
theorem performed_deleteValue
    (hRows : c.content.rows s.collection = .ok rows)
    (subject predicate : String)
    (d : Datum) :
    ∃ answer c' rows',
      (s.deleteValue subject predicate d).on c =
        (answer, c') ∧
      (Command.deleteValue subject predicate d).Performed
        s c rows answer c' rows' := by
  rw [Store.on_deleteValue hRows]
  cases hCode : encode d with
  | error e =>
      refine ⟨_, _, _, rfl, performed_of_error hRows e ?_⟩
      simp [Succeeds, hCode]
  | ok v =>
      refine ⟨_, _, _, rfl,
        performed_delete hRows ?_ ?_ ?_⟩
      · simp [Succeeds, hCode]
      · simp [Adds]
      · simp [Removes, Triple.states_iff hCode]

/-
  What every command answers, and what it does to the rows of
  a collection that is there.
-/
theorem on_action
    (hRows : c.content.rows s.collection = .ok rows)
    (command : Command) :
    ∃ answer c' rows',
      (command.action s).on c = (answer, c') ∧
      command.Performed s c rows answer c' rows' := by
  cases command with
  | set subject predicate d =>
      exact performed_set hRows subject predicate d
  | setMany subject predicate ds =>
      exact performed_setMany hRows subject predicate ds
  | setProperties subject properties =>
      exact performed_setProperties hRows subject properties
  | deleteValue subject predicate d =>
      exact performed_deleteValue hRows subject predicate d
  | deletePredicate subject predicate =>
      rw [action, Store.deletePredicate, Store.on_alter hRows]
      refine ⟨_, _, _, rfl,
        performed_delete hRows trivial ?_ ?_⟩
      · simp [Adds]
      · intro t
        simp only [Bool.and_eq_true, decide_eq_true_eq]
        exact Iff.rfl
  | deleteSubject subject =>
      rw [action, Store.deleteSubject, Store.on_alter hRows]
      refine ⟨_, _, _, rfl,
        performed_delete hRows trivial ?_ ?_⟩
      · simp [Adds]
      · intro t
        simp only [decide_eq_true_eq]
        exact Iff.rfl

end Command

------------------------------------------------------------
-- Runs
------------------------------------------------------------

namespace Store

variable {s : Store}

/-
  A run keeps the rows sound, answers each command as it should,
  and leaves the triples of its history.  The induction is on
  the commands, for any rows to start with.
-/
theorem runAll_performed
    {c : Connection}
    {rows : List Row}
    (hRows : c.content.rows s.collection = .ok rows)
    (hSound : Row.Sound rows)
    (commands : List Command) :
    ∃ answers c' rows',
      s.runAll commands c = (answers, c') ∧
      c'.content.rows s.collection = .ok rows' ∧
      Row.Sound rows' ∧
      List.Forall₂
        (fun command answer =>
          answer = .ok () ↔ command.Succeeds c.inTransaction)
        commands answers ∧
      ∀ t : Triple, t.row ∈ rows' ↔
        t ∈ (commands.zip answers).foldl Command.leave
          {t | t.row ∈ rows} := by
  induction commands generalizing c rows with
  | nil =>
      exact ⟨[], c, rows, rfl, hRows, hSound, .nil,
        fun _ => Iff.rfl⟩
  | cons command commands ih =>
      rcases Command.on_action hRows command with
        ⟨answer, c', rows', hAction, hPerformed⟩
      rcases ih hPerformed.rows_after
          (hPerformed.sound hSound) with
        ⟨answers, c'', rows'', hRun, hRows'', hSound'',
          hAnswers, hMember⟩
      rw [hPerformed.inTransaction_after] at hAnswers
      have hTriples :
          {t : Triple | t.row ∈ rows'} =
            Command.leave {t | t.row ∈ rows}
              (command, answer) :=
        Set.ext hPerformed.mem_iff
      refine ⟨answer :: answers, c'', rows'', ?_, hRows'',
        hSound'', .cons hPerformed.succeeds_iff hAnswers, ?_⟩
      · rw [runAll, hAction]
        simp only [hRun]
      · intro t
        rw [hMember t, List.zip_cons_cons, List.foldl_cons,
          hTriples]

/- A run of commands keeps the table of the collection. -/
theorem hasTable_runAll
    {c : Connection}
    (hTable : c.content.hasTable s.collection = true)
    (commands : List Command) :
    (s.runAll commands c).2.content.hasTable s.collection =
      true := by
  induction commands generalizing c with
  | nil => exact hTable
  | cons command commands ih =>
      rcases Database.hasTable_iff.mp hTable with ⟨rows, hRows⟩
      rcases Command.on_action hRows command with
        ⟨answer, c', rows', hAction, hPerformed⟩
      rw [runAll, hAction]
      exact ih (Database.hasTable_iff.mpr
        ⟨rows', hPerformed.rows_after⟩)

/-
  After any run of commands on an empty collection, the list of
  all triples is the set that the history describes, in strictly
  ascending order of the bytes of subject, predicate and value.
-/
theorem list_all_after_run
    (s : Store)
    (c : Connection)
    (hEmpty : c.content.rows s.collection = .ok [])
    (commands : List Command) :
    ∃ answers c' ts,
      s.runAll commands c = (answers, c') ∧
      List.Forall₂
        (fun command answer =>
          answer = .ok () ↔ command.Succeeds c.inTransaction)
        commands answers ∧
      (s.list .all).on c' = (.ok ts, c') ∧
      ts.Pairwise (fun t u => t.key < u.key) ∧
      ∀ t, t ∈ ts ↔
        t ∈ (commands.zip answers).foldl Command.leave ∅ := by
  rcases runAll_performed hEmpty .nil commands with
    ⟨answers, c', rows, hRun, hRows, hSound, hAnswers,
      hMember⟩
  rcases hSound.exists_triples with ⟨ts, hSort, hAscending⟩
  refine ⟨answers, c', ts, hRun, hAnswers,
    on_list_all hRows hSort, hAscending, ?_⟩
  intro t
  have hListed : t ∈ ts ↔ t.row ∈ rows := by
    rw [← Row.mem_sort_iff, hSort]
    simp
  rw [hListed, hMember t]
  simp

/-
  A run with a repeated value, a datum without an encoding and
  a deletion.
-/
def peopleRun : List Command :=
  [.setMany "ann" "tag" [.bool true, .bool true, .unit],
    .set "bob" "tag" (.map [(.unit, .unit)]),
    .deleteValue "ann" "tag" .unit]

theorem list_all_after_run_people :
    (Connection.fresh "people").content.rows "people" =
        .ok [] ∧
      ∃ answers c' ts,
        runAll ⟨"people"⟩ peopleRun (.fresh "people") =
          (answers, c') ∧
        List.Forall₂
          (fun command answer =>
            answer = .ok () ↔ command.Succeeds false)
          peopleRun answers ∧
        (list ⟨"people"⟩ .all).on c' = (.ok ts, c') ∧
        ts.Pairwise (fun t u => t.key < u.key) ∧
        ∀ t, t ∈ ts ↔
          t ∈ (peopleRun.zip answers).foldl Command.leave ∅ := by
  have hEmpty :
      (Connection.fresh "people").content.rows "people" =
        .ok [] :=
    Connection.rows_fresh (foldName_eq_self rfl)
  exact ⟨hEmpty,
    list_all_after_run ⟨"people"⟩ _ hEmpty peopleRun⟩

end Store

end Factbase
