import Factbase.Proofs.Store.Commands

/-
  Batches of values, which are stored all or none.

  A batch that succeeds is as many single writes.  One that fails
  leaves the connection as it was, wherever the datum without an
  encoding stands, and so does one inside a transaction.

  Main declarations:
    * `Batch`
    * `Batch.on_store_idle`
    * `Store.runAll_sets`
    * `Batch.store_all_or_none`
-/

namespace Factbase

------------------------------------------------------------
-- Batches
------------------------------------------------------------

/- Values that are stored for one subject in one go. -/
inductive Batch where
  /- Values of one predicate. -/
  | values (predicate : String) (ds : List Datum)
  /- Values of several predicates. -/
  | properties (ps : List (String × List Datum))

namespace Batch

/- What a store does with a batch. -/
def store
    (s : Store)
    (subject : String) : Batch → Action Unit
  | .values predicate ds => s.setMany subject predicate ds
  | .properties ps => s.setProperties subject ps

/- The values of a batch in order, with their predicates. -/
def pairs : Batch → List (String × Datum)
  | .values predicate ds => ds.map fun d => (predicate, d)
  | .properties ps => pairsOf ps

/- The single writes that a batch stands for. -/
def singly
    (b : Batch)
    (subject : String) : List Command :=
  b.pairs.map fun (predicate, d) => .set subject predicate d

/- A batch that is nothing to do: no values of a predicate. -/
def IsIdle (b : Batch) : Prop :=
  ∃ predicate, b = .values predicate []

variable {s : Store}
variable {c : Connection}
variable {rows : List Row}

theorem on_store_idle
    (hIdle : c.inTransaction = false)
    (hRows : c.content.rows s.collection = .ok rows)
    (subject : String)
    (b : Batch) :
    (b.store s subject).on c =
      c.storeAll s.collection (written subject b.pairs) := by
  cases b with
  | values predicate ds =>
      exact Store.on_setMany hIdle hRows subject predicate ds
  | properties ps =>
      exact Store.on_setProperties hIdle hRows subject ps

theorem on_store_open
    (hOpen : c.inTransaction = true)
    (subject : String)
    {b : Batch}
    (hBusy : ¬b.IsIdle) :
    (b.store s subject).on c =
      (.error (.execution .nestedTransaction), c) := by
  cases b with
  | values predicate ds =>
      cases ds with
      | nil => exact absurd ⟨predicate, rfl⟩ hBusy
      | cons d ds => exact Action.on_batch_open hOpen _
  | properties ps => exact Action.on_batch_open hOpen _

end Batch

/- The writing stops at the first datum without an encoding. -/
theorem written_of_first_error
    (subject predicate : String)
    {first : List (String × Datum)}
    {d : Datum}
    {e : StoreError}
    (hFirst : ∀ pair ∈ first, ∃ v, encode pair.2 = .ok v)
    (hCode : encode d = .error e)
    (rest : List (String × Datum)) :
    (written subject (first ++ (predicate, d) :: rest)).2 =
      .error e := by
  rw [written_append_of_ok ((written_eq_ok_iff _).mpr hFirst),
    written, hCode]

/-
  Single writes whose data all have encodings add the triples
  that are written of them, and each of them succeeds.
-/
theorem Store.runAll_sets
    {s : Store}
    {c : Connection}
    {rows : List Row}
    (hRows : c.content.rows s.collection = .ok rows)
    (subject : String)
    {pairs : List (String × Datum)}
    (hEach : ∀ pair ∈ pairs, ∃ v, encode pair.2 = .ok v) :
    s.runAll
        (pairs.map fun (predicate, d) =>
          .set subject predicate d) c =
      (pairs.map fun _ => .ok (),
        c.store s.collection (written subject pairs).1) := by
  induction pairs generalizing c rows with
  | nil => rfl
  | cons pair pairs ih =>
      rcases pair with ⟨predicate, d⟩
      rcases hEach (predicate, d) (by simp) with ⟨v, hCode⟩
      have hSet := on_set (s := s) hRows subject predicate d
      simp only [hCode] at hSet
      have hRest := ih (Connection.rows_alter hRows
          (Row.upsert (Triple.row ⟨subject, predicate, v⟩)))
        fun pair hPair =>
          hEach pair (List.mem_cons_of_mem _ hPair)
      simp only [List.map_cons, runAll, Command.action, hSet,
        hRest, written, hCode, Connection.store_cons]

------------------------------------------------------------
-- All or None
------------------------------------------------------------

/-
  A batch outside a transaction is as many single writes if all
  data have encodings; otherwise it fails with the fault of the
  first that has none and changes nothing.  Inside a transaction
  it fails and changes nothing, so that the transaction stays
  open as it is.  A batch with nothing to do always succeeds.
-/
theorem Batch.store_all_or_none
    (s : Store)
    (c : Connection)
    (subject : String)
    (b : Batch) :
    (c.content.hasTable s.collection = true →
      c.inTransaction = false →
      (∀ pair ∈ b.pairs, ∃ v, encode pair.2 = .ok v) →
        ∃ c',
          (b.store s subject).on c = (.ok (), c') ∧
          s.runAll (b.singly subject) c =
            ((b.singly subject).map fun _ => .ok (), c')) ∧
    (c.content.hasTable s.collection = true →
      c.inTransaction = false →
      ∀ first predicate d rest fault,
        b.pairs = first ++ (predicate, d) :: rest →
        (∀ pair ∈ first, ∃ v, encode pair.2 = .ok v) →
        d.encode = .error fault →
          (b.store s subject).on c =
            (.error (.encode fault), c)) ∧
    (c.inTransaction = true → ¬b.IsIdle →
      (b.store s subject).on c =
        (.error (.execution .nestedTransaction), c)) ∧
    (b.IsIdle → (b.store s subject).on c = (.ok (), c)) := by
  refine ⟨?_, ?_, ?_, ?_⟩
  · intro hTable hIdle hEach
    rcases Database.hasTable_iff.mp hTable with ⟨rows, hRows⟩
    have hEnding := (written_eq_ok_iff subject).mpr hEach
    refine ⟨c.store s.collection (written subject b.pairs).1,
      ?_, ?_⟩
    · rw [on_store_idle hIdle hRows,
        Connection.storeAll_of_ok hEnding]
    · rw [singly, Store.runAll_sets hRows subject hEach,
        List.map_map]
      rfl
  · intro hTable hIdle first predicate d rest fault hPairs
      hFirst hFault
    rcases Database.hasTable_iff.mp hTable with ⟨rows, hRows⟩
    have hCode : encode d = .error (.encode fault) := by
      rw [encode, hFault]
      rfl
    have hEnding := written_of_first_error subject predicate
      hFirst hCode rest
    rw [on_store_idle hIdle hRows, hPairs,
      Connection.storeAll_of_error hEnding]
  · intro hOpen hBusy
    exact on_store_open hOpen subject hBusy
  · rintro ⟨predicate, rfl⟩
    rfl

/- A batch whose second value of three has no encoding. -/
theorem Batch.store_all_or_none_people :
    (store ⟨"people"⟩ "ann"
        (.values "tag" [.unit, .map [(.unit, .unit)], .unit])).on
      (.fresh "people") =
        (.error (.encode .keyNotString), .fresh "people") := by
  have hTable :
      (Connection.fresh "people").content.hasTable "people" =
        true :=
    Connection.hasTable_fresh (foldName_eq_self rfl)
  have hFirst :
      ∀ pair ∈ [("tag", Datum.unit)],
        ∃ v, encode pair.2 = .ok v := by
    simp only [List.mem_singleton, forall_eq]
    exact ⟨"null", rfl⟩
  exact (store_all_or_none ⟨"people"⟩ _ "ann"
    (.values "tag" [.unit, .map [(.unit, .unit)], .unit])).2.1
      hTable rfl [("tag", .unit)] "tag" (.map [(.unit, .unit)])
      [("tag", .unit)] .keyNotString rfl hFirst rfl

end Factbase
