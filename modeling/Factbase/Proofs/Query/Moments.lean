import Factbase.Proofs.Calendar.TextOrder
import Factbase.Proofs.Data.Instants
import Factbase.Proofs.Query.Answers

/-
  Triples that are written with one datum and asked for with
  another one.

  A store compares encoded values, so a triple is found and
  removed by the data that have its value as their encoding, and
  by no others.  Timestamps of one instant are such data if both
  are faithful: their stored text is that of the instant in UTC.

  Key definitions include:
    * `Store.Recalls`

  Main declarations:
    * `Zoned.encode_moment_eq_iff`
    * `Store.recalls_iff`
    * `Store.recalls_same_instant`
-/

namespace Factbase

------------------------------------------------------------
-- Encoded Timestamps
------------------------------------------------------------

namespace Zoned

variable {z : Zoned}

/- Faithful timestamps are encoded as their instant in UTC. -/
theorem encode_moment_eq_iff (hSupported : z.Supported) :
    encode (.moment z) = .ok z.instant.text ↔ z.Faithful := by
  rw [encode_moment, Instant.text, Except.ok.injEq,
    String.ofList_inj, Json.quoted_inj,
    Stamp.momentText_eq_fixed_iff hSupported]

end Zoned

------------------------------------------------------------
-- Recalled Triples
------------------------------------------------------------

namespace Store

variable {s : Store}
variable {c : Connection}
variable {rows : List Row}
variable {ts : List Triple}
variable {t : Triple}
variable {d : Datum}

/-
  A datum stands for the value of a triple, where all triples
  are listed: the query for the datum finds the subjects with
  this value, and its deletion leaves all triples but this one.
  The query is not answered if the collection has the name that
  the statement gives to a set of its own.
-/
structure Recalls
    (s : Store)
    (c : Connection)
    (ts : List Triple)
    (t : Triple)
    (d : Datum) : Prop where
  found :
    foldName s.collection ≠ "candidates" →
      ∃ q, whereEq t.predicate d = .ok q ∧
        (s.list (.matching q)).on c =
          (.ok (ts.filter fun u =>
            ⟨u.subject, t.predicate, t.encoded⟩ ∈ ts), c)
  removed :
    ∃ c', (s.deleteValue t.subject t.predicate d).on c =
        (.ok (), c') ∧
      (s.list .all).on c' = (.ok (ts.filter (· ≠ t)), c')

/- One triple less is listed after its row is deleted. -/
theorem on_list_all_delete
    (hRows : c.content.rows s.collection = .ok rows)
    (hSort : Row.sort rows = ts.map Triple.row)
    (t : Triple) :
    let c' := c.alter s.collection
      (Row.delete fun r => r = t.row)
    (s.list .all).on c' = (.ok (ts.filter (· ≠ t)), c') := by
  apply on_list_all (Connection.rows_alter hRows _)
  rw [Row.delete, Row.sort_filter, hSort, List.filter_map]
  congr 1
  apply List.filter_congr
  intro u _
  simp [Triple.row_inj]

/- A query for a datum finds the subjects with its encoding. -/
theorem on_list_whereEq
    (hRows : c.content.rows s.collection = .ok rows)
    (hSort : Row.sort rows = ts.map Triple.row)
    (hName : foldName s.collection ≠ "candidates")
    {v : String}
    (hEncode : encode d = .ok v)
    (predicate : String) :
    ∃ q, whereEq predicate d = .ok q ∧
      (s.list (.matching q)).on c =
        (.ok (ts.filter fun u =>
          ⟨u.subject, predicate, v⟩ ∈ ts), c) := by
  let q : MatchQuery := ⟨.equals ⟨predicate, v⟩, [], [], []⟩
  have hQuery : whereEq predicate d = .ok q := by
    rw [whereEq, Clause.encoding, hEncode]
    rfl
  have hSelects : ∀ subject,
      (Query.matching q).Selects ts subject ↔
        ⟨subject, predicate, v⟩ ∈ ts := by
    intro subject
    simp [q, Query.Selects, Query.Starts, Primary.Holds,
      Clause.Holds, Query.wheres, Query.has, Query.without]
  have hTerms :
      (Query.matching q).sets ≤ Database.mostTerms := by
    change 1 ≤ Database.mostTerms
    decide
  have hList := Query.list_statement (q := .matching q) hSort rfl
  simp only [hSelects] at hList
  exact ⟨q, hQuery, on_list_of_rows hRows hTerms
    (by simpa [Query.ownNames] using hName) hList⟩

/- A listed triple is recalled by the data with its value. -/
theorem recalls_iff
    (hRows : c.content.rows s.collection = .ok rows)
    (hSort : Row.sort rows = ts.map Triple.row)
    (hListed : t ∈ ts) :
    s.Recalls c ts t d ↔ encode d = .ok t.encoded := by
  constructor
  · rintro ⟨_, c', hDelete, hList⟩
    rw [on_deleteValue hRows] at hDelete
    cases hEncode : encode d with
    | error e => simp [hEncode] at hDelete
    | ok v =>
        -- another value would leave the triple in the list
        by_contra hOther
        have hStays : t ≠ ⟨t.subject, t.predicate, v⟩ := by
          intro hSame
          exact hOther (by rw [hSame])
        have hLeft := on_list_all_delete hRows hSort
          ⟨t.subject, t.predicate, v⟩
        simp only [hEncode, Prod.mk.injEq, true_and] at hDelete
        simp only [hDelete, hList, Prod.mk.injEq,
          Except.ok.injEq, and_true] at hLeft
        have hThere : t ∈ ts.filter (· ≠ t) := by
          rw [hLeft]
          simpa using And.intro hListed hStays
        simp at hThere
  · intro hEncode
    constructor
    · intro hName
      exact on_list_whereEq hRows hSort hName hEncode t.predicate
    · refine ⟨_, ?_, on_list_all_delete hRows hSort t⟩
      rw [on_deleteValue hRows, hEncode]

/-
  A triple that a command adds is listed after it, and recalled
  by the data with its value.
-/
theorem exists_recalls
    (hReach : c.Reachable)
    (hTable : c.content.hasTable s.collection = true)
    {command : Command}
    (hSucceeds : command.Succeeds c.inTransaction)
    (hAdds : command.Adds t) :
    ∃ c' ts, (command.action s).on c = (.ok (), c') ∧
      (s.list .all).on c' = (.ok ts, c') ∧ t ∈ ts ∧
      ∀ d, s.Recalls c' ts t d ↔ encode d = .ok t.encoded := by
  rcases Database.hasTable_iff.mp hTable with ⟨rows, hRows⟩
  rcases Command.on_action hRows command with
    ⟨answer, c', rows', hAction, hPerformed⟩
  rcases (hPerformed.sound
      (hReach.rows_sound hRows)).exists_triples with
    ⟨ts, hSort, _⟩
  have hAnswer := hPerformed.succeeds_iff.mpr hSucceeds
  have hListed : t ∈ ts := by
    have hRow : t.row ∈ rows' := by
      rw [hPerformed.mem_iff, hAnswer]
      exact Or.inr hAdds
    rw [← Row.mem_sort_iff, hSort] at hRow
    simpa using hRow
  rw [hAnswer] at hAction
  exact ⟨c', ts, hAction, on_list_all hPerformed.rows_after hSort,
    hListed, fun d => recalls_iff hPerformed.rows_after hSort
      hListed⟩

/-
  A timestamp is encoded as its instant in UTC exactly if it is
  faithful.  On any connection that requests lead to, a triple
  that is written with a faithful timestamp is then recalled by
  a timestamp of the same instant, whatever its offset, exactly
  if that one is faithful as well.
-/
theorem recalls_same_instant
    (s : Store)
    (c : Connection)
    (hReach : c.Reachable)
    (hTable : c.content.hasTable s.collection = true) :
    (∀ z : Zoned, z.Supported →
      (encode (.moment z) = .ok z.instant.text ↔ z.Faithful)) ∧
    ∀ a b : Zoned, a.Supported → b.Supported →
      a.instant = b.instant → a.Faithful →
        (encode (.moment a) = encode (.moment b) ↔ b.Faithful) ∧
        ∀ (command : Command) (t : Triple) subject predicate,
          t.States subject predicate (.moment a) →
          command.Adds t → command.Succeeds c.inTransaction →
            ∃ c' ts, (command.action s).on c = (.ok (), c') ∧
              (s.list .all).on c' = (.ok ts, c') ∧ t ∈ ts ∧
              (s.Recalls c' ts t (.moment b) ↔ b.Faithful) := by
  constructor
  · exact fun z hSupported => z.encode_moment_eq_iff hSupported
  · intro a b ha hb hSame hFaithful
    have hEncodeA := (Zoned.encode_moment_eq_iff ha).mpr hFaithful
    have hEncodeB := Zoned.encode_moment_eq_iff hb
    rw [← hSame] at hEncodeB
    constructor
    · rw [hEncodeA, eq_comm, hEncodeB]
    · rintro command t subject predicate ⟨_, _, hValue⟩ hAdds
        hSucceeds
      rcases exists_recalls hReach hTable hSucceeds hAdds with
        ⟨c', ts, hAction, hList, hListed, hRecalls⟩
      refine ⟨c', ts, hAction, hList, hListed, ?_⟩
      rw [hEncodeA, Except.ok.injEq] at hValue
      rw [hRecalls, ← hValue, hEncodeB]

/-
  One instant on four clocks.  A clock east of UTC by hours and
  minutes recalls what was written, one by half a minute does
  not, and a year of five digits is not even rewritten.
-/
theorem recalls_same_instant_people :
    let utc : Zoned := ⟨⟨1720699200, 0⟩, 0⟩
    let east : Zoned := ⟨⟨1720699200, 0⟩, 20700⟩
    let odd : Zoned := ⟨⟨1720699200, 0⟩, 30⟩
    let late : Zoned := ⟨⟨253402300800, 0⟩, 0⟩
    let command : Command := .set "ann" "met" (.moment utc)
    let t : Triple := ⟨"ann", "met", utc.instant.text⟩
    encode (.moment utc) = encode (.moment east) ∧
      encode (.moment utc) ≠ encode (.moment odd) ∧
      encode (.moment late) ≠ .ok late.instant.text ∧
      ∃ c' ts,
        (command.action ⟨"people"⟩).on (.fresh "people") =
          (.ok (), c') ∧
        (list ⟨"people"⟩ .all).on c' = (.ok ts, c') ∧ t ∈ ts ∧
        Recalls ⟨"people"⟩ c' ts t (.moment east) ∧
        ¬ Recalls ⟨"people"⟩ c' ts t (.moment odd) := by
  intro utc east odd late command t
  have hFold : foldName "people" = "people" := foldName_eq_self rfl
  have hMain := recalls_same_instant ⟨"people"⟩ (.fresh "people")
    (Connection.reachable_fresh (by decide) hFold (by decide))
    (Connection.hasTable_fresh hFold)
  have hUtc : utc.Supported := by decide
  have hEast : east.Supported := by decide
  have hOdd : odd.Supported := by decide
  have hFaithful : utc.Faithful := by decide
  have hEncode := (hMain.1 utc hUtc).mpr hFaithful
  have hStates : t.States "ann" "met" (.moment utc) :=
    ⟨rfl, rfl, hEncode⟩
  rcases hMain.2 utc east hUtc hEast rfl hFaithful with
    ⟨hSame, hEastRecalls⟩
  rcases hMain.2 utc odd hUtc hOdd rfl hFaithful with
    ⟨hOther, hOddRecalls⟩
  rcases hEastRecalls command t "ann" "met" hStates hStates
      ⟨_, hEncode⟩ with
    ⟨c', ts, hAction, hList, hListed, hRecalls⟩
  rcases hOddRecalls command t "ann" "met" hStates hStates
      ⟨_, hEncode⟩ with
    ⟨d', us, hAction', hList', _, hRecalls'⟩
  rw [hAction, Prod.mk.injEq] at hAction'
  rcases hAction' with ⟨_, rfl⟩
  rw [hList, Prod.mk.injEq, Except.ok.injEq] at hList'
  rcases hList' with ⟨rfl, _⟩
  refine ⟨hSame.mpr (by decide), ?_, ?_,
    c', ts, hAction, hList, hListed,
    hRecalls.mpr (by decide), ?_⟩
  · rw [ne_eq, hOther]
    decide
  · rw [ne_eq, hMain.1 late (by decide)]
    decide
  · rw [hRecalls']
    decide

end Store

end Factbase
