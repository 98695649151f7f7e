import Factbase.Proofs.Store.Reachable

/-
  Connections that only stores have written to.

  No other program leaves a text of its own in a collection, so
  every value is the encoding of a datum that was set.

  Key definitions include:
    * `Request.IsOwn`
    * `Connection.Written`
    * `Row.Encoded`

  Main declarations:
    * `Connection.Written.reachable`
    * `Connection.Written.rows_encoded`
-/

namespace Factbase

/- A request that leaves it to a store what is written. -/
def Request.IsOwn : Request → Prop
  | .insert _ _ => False
  | _ => True

/- The connections that such requests lead to. -/
inductive Connection.Written : Connection → Prop where
  | start : Written (.idle .empty)
  | step
      {c : Connection}
      (hWritten : Written c)
      (request : Request)
      (hOwn : request.IsOwn) :
      Written (request.action.on c).2
  | refresh
      {c d : Connection}
      (hWritten : Written c)
      (hOther : Written d) :
      Written { c with committed := d.committed }

------------------------------------------------------------
-- Encoded Rows
------------------------------------------------------------

namespace Row

/- Every row stores a triple with an encoded value. -/
def Encoded (rows : List Row) : Prop :=
  ∀ r ∈ rows, ∃ t d, r = Triple.row t ∧ encode d = .ok t.encoded

/- Stores only add encoded values. -/
theorem kept_encoded :
    Kept Encoded fun t => ∃ d, encode d = .ok t.encoded where
  nil := by simp [Encoded]
  upsert rows t hEncoded hValue := by
    rcases hValue with ⟨d, hValue⟩
    intro r hMember
    rcases mem_upsert_iff.mp hMember with rfl | hOld
    · exact ⟨t, d, rfl, hValue⟩
    · exact hEncoded r hOld
  delete rows doomed hEncoded r hMember :=
    hEncoded r (mem_delete_iff.mp hMember).1

end Row

theorem Triple.encode_of_encoding
    {subject predicate : String}
    {d : Datum}
    {t : Triple}
    (hEncoding : Triple.encoding subject predicate d = .ok t) :
    encode d = .ok t.encoded := by
  rw [Triple.encoding] at hEncoding
  cases hValue : encode d with
  | error e => simp [hValue, bind, Except.bind] at hEncoding
  | ok v =>
      simp only [hValue, bind, Except.bind, Except.ok.injEq]
        at hEncoding
      rw [← hEncoding]

------------------------------------------------------------
-- Written Connections
------------------------------------------------------------

namespace Connection.Written

variable {c : Connection}

theorem reachable (hWritten : c.Written) : c.Reachable := by
  induction hWritten with
  | start => exact .start
  | step _ request _ ih => exact ih.step request
  | refresh _ _ ih ihOther => exact ih.refresh ihOther

/- The induction is on how the connection is reached. -/
theorem all_encoded (hWritten : c.Written) :
    c.All Row.Encoded := by
  induction hWritten with
  | start => exact all_idle Database.all_empty
  | step _ request hOwn ih =>
      refine request.keeps Row.kept_encoded ?_ ?_ _ ih
      · intro subject predicate d t hEncoding
        exact ⟨d, Triple.encode_of_encoding hEncoding⟩
      · rintro s t rfl
        cases hOwn
  | refresh _ _ ih ihOther =>
      exact ⟨ihOther.committed, ih.pending⟩

/- Every collection on such a connection holds encoded values. -/
theorem rows_encoded
    (hWritten : c.Written)
    {collection : String}
    {rows : List Row}
    (hRows : c.content.rows collection = .ok rows) :
    Row.Encoded rows :=
  hWritten.all_encoded.content.rows hRows

theorem runAll
    (hWritten : c.Written)
    (s : Store)
    (commands : List Command) :
    (s.runAll commands c).2.Written := by
  induction commands generalizing c with
  | nil => exact hWritten
  | cons command commands ih =>
      exact ih (hWritten.step (.perform s command) trivial)

end Connection.Written

theorem Connection.written_fresh
    {name : String}
    (hIdentifier : isIdentifier name = true)
    (hFold : foldName name = name)
    (hPlain :
      "sqlite_".toList.isPrefixOf (indexName name).toList =
        false) :
    (fresh name).Written := by
  have hWritten := Written.start.step (.openStore name) trivial
  rw [Request.action,
    on_migrate_empty hIdentifier hFold hPlain] at hWritten
  exact hWritten

end Factbase
