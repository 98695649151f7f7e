import Factbase.Proofs.Store.RowOrder
import Mathlib.Tactic.Tauto

/-
  Rows as stores keep them: no row twice, and a triple in each.

  Main declarations:
    * `Row.Sound`
    * `Row.upsertAll`
    * `Row.Sound.exists_triples`
    * `Row.readAll_map_row`
-/

namespace Factbase

namespace Row

------------------------------------------------------------
-- Members
------------------------------------------------------------

/- An upserted row is there with all others. -/
@[simp] theorem mem_upsert_iff
    {r added : Row}
    {rows : List Row} :
    r ∈ upsert added rows ↔ r = added ∨ r ∈ rows := by
  by_cases hThere : added ∈ rows
  · rw [upsert, if_pos hThere]
    constructor
    · exact Or.inr
    · rintro (rfl | hOld)
      · exact hThere
      · exact hOld
  · rw [upsert, if_neg hThere, List.mem_cons]

/- The rows that stay are those that are not doomed. -/
@[simp] theorem mem_delete_iff
    {r : Row}
    {doomed : Row → Bool}
    {rows : List Row} :
    r ∈ delete doomed rows ↔ r ∈ rows ∧ doomed r = false := by
  simp [delete]

/- Rows with those of some triples added one by one. -/
def upsertAll
    (ts : List Triple)
    (rows : List Row) : List Row :=
  ts.foldl (fun rows t => upsert t.row rows) rows

@[simp] theorem row_mem_upsertAll_iff
    {t : Triple}
    {ts : List Triple}
    {rows : List Row} :
    t.row ∈ upsertAll ts rows ↔ t.row ∈ rows ∨ t ∈ ts := by
  induction ts generalizing rows with
  | nil => simp [upsertAll]
  | cons u ts ih =>
      rw [upsertAll, List.foldl_cons, ← upsertAll, ih,
        mem_upsert_iff, Triple.row_inj, List.mem_cons]
      tauto

/- Rows that each store a triple are those of some triples. -/
theorem exists_eq_map_row
    {rows : List Row}
    (hLegible : ∀ r ∈ rows, ∃ t : Triple, r = t.row) :
    ∃ ts : List Triple, rows = ts.map Triple.row := by
  induction rows with
  | nil => exact ⟨[], rfl⟩
  | cons r rows ih =>
      rcases hLegible r (by simp) with ⟨t, rfl⟩
      rcases ih fun r hMember =>
          hLegible r (List.mem_cons_of_mem _ hMember) with
        ⟨ts, rfl⟩
      exact ⟨t :: ts, rfl⟩

------------------------------------------------------------
-- Soundness
------------------------------------------------------------

/- No row is there twice, and each stores a triple. -/
structure Sound (rows : List Row) : Prop where
  nodup : rows.Nodup
  legible : ∀ r ∈ rows, ∃ t : Triple, r = t.row

namespace Sound

theorem nil : Sound [] :=
  ⟨List.nodup_nil, by simp⟩

/- Rows with an upserted triple have it once, and stay sound. -/
theorem upsert
    {rows : List Row}
    (hSound : Sound rows)
    (t : Triple) :
    Sound (Row.upsert t.row rows) := by
  constructor
  · by_cases hThere : t.row ∈ rows
    · rw [Row.upsert, if_pos hThere]
      exact hSound.nodup
    · rw [Row.upsert, if_neg hThere]
      exact List.nodup_cons.mpr ⟨hThere, hSound.nodup⟩
  · intro r hMember
    rcases mem_upsert_iff.mp hMember with rfl | hOld
    · exact ⟨t, rfl⟩
    · exact hSound.legible r hOld

/- So do rows with more of them.  The induction is on these. -/
theorem upsertAll
    {rows : List Row}
    (hSound : Sound rows)
    (ts : List Triple) :
    Sound (Row.upsertAll ts rows) := by
  induction ts generalizing rows with
  | nil => exact hSound
  | cons t ts ih => exact ih (hSound.upsert t)

theorem delete
    {rows : List Row}
    (hSound : Sound rows)
    (doomed : Row → Bool) :
    Sound (Row.delete doomed rows) := by
  constructor
  · exact hSound.nodup.filter _
  · intro r hMember
    exact hSound.legible r (mem_delete_iff.mp hMember).1

/-
  The rows in their order store triples that ascend strictly
  by the bytes of their parts.
-/
theorem exists_triples
    {rows : List Row}
    (hSound : Sound rows) :
    ∃ ts : List Triple,
      sort rows = ts.map Triple.row ∧
        ts.Pairwise fun t u => t.key < u.key := by
  have hLegible :
      ∀ r ∈ sort rows, ∃ t : Triple, r = t.row := by
    intro r hMember
    exact hSound.legible r (mem_sort_iff.mp hMember)
  rcases exists_eq_map_row hLegible with ⟨ts, hTriples⟩
  refine ⟨ts, hTriples, ?_⟩
  have hStrict := sort_pairwise_lt hSound.nodup
  rw [hTriples, List.pairwise_map] at hStrict
  exact hStrict.imp Triple.compare_row_eq_lt_iff.mp

end Sound

/- Rows that store triples can be read. -/
@[simp] theorem readAll_map_row (ts : List Triple) :
    readAll (ts.map Triple.row) = .ok ts := by
  induction ts with
  | nil => rfl
  | cons t ts ih =>
      have hHead : t.row.read = .ok t := rfl
      simp only [readAll] at ih
      simp only [readAll, List.map_cons, List.mapM_cons, hHead,
        ih]
      rfl

end Row

end Factbase
