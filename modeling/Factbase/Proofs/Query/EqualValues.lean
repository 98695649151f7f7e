import Factbase.Proofs.Data.Equality
import Factbase.Proofs.Query.Moments

/-
  Equal values in a store.

  What is stored is the encoding of a value, so a value that is
  equal to the one that was set stands for it if it is encoded
  alike: setting it as well adds nothing, and the query for it
  and its deletion find the triple.  Otherwise zeros of opposite
  signs face each other, and the two values are two triples.

  Main declarations:
    * `Store.exists_set_both`
    * `Store.recalls_equal_value`
-/

namespace Factbase

namespace Store

variable {s : Store}
variable {c : Connection}

/- Two data are set one after the other for one pair. -/
theorem exists_set_both
    (hReach : c.Reachable)
    (hTable : c.content.hasTable s.collection = true)
    {d e : Datum}
    {x y : String}
    (hEncode : encode d = .ok x)
    (hEncode' : encode e = .ok y)
    (subject predicate : String) :
    ∃ c' c'' ts us,
      (s.set subject predicate d).on c = (.ok (), c') ∧
      (s.list .all).on c' = (.ok ts, c') ∧
      (s.set subject predicate e).on c' = (.ok (), c'') ∧
      (s.list .all).on c'' = (.ok us, c'') ∧
      ⟨subject, predicate, x⟩ ∈ us ∧
      ⟨subject, predicate, y⟩ ∈ us ∧
      (x = y → us = ts) ∧
      ∀ d', s.Recalls c' ts ⟨subject, predicate, x⟩ d' ↔
        encode d' = .ok x := by
  let t : Triple := ⟨subject, predicate, x⟩
  let u : Triple := ⟨subject, predicate, y⟩
  rcases Database.hasTable_iff.mp hTable with ⟨rows, hRows⟩
  have hSound := (hReach.rows_sound hRows).upsert t
  have hRows' := Connection.rows_alter hRows (Row.upsert t.row)
  have hRows'' := Connection.rows_alter hRows' (Row.upsert u.row)
  rcases hSound.exists_triples with ⟨ts, hSort, _⟩
  rcases (hSound.upsert u).exists_triples with ⟨us, hSort', _⟩
  have hMember : ∀ v : Triple, v ∈ us ↔
      v = u ∨ v = t ∨ v.row ∈ rows := by
    intro v
    have hRow : v ∈ us ↔ v.row ∈ Row.sort
        (Row.upsert u.row (Row.upsert t.row rows)) := by
      rw [hSort']
      simp
    simp [hRow]
  have hListed : t ∈ ts := by
    have hRow : t.row ∈ Row.sort (Row.upsert t.row rows) := by
      simp
    rw [hSort] at hRow
    simpa using hRow
  refine ⟨_, _, ts, us, ?_, on_list_all hRows' hSort, ?_,
    on_list_all hRows'' hSort', (hMember t).mpr (.inr (.inl rfl)),
    (hMember u).mpr (.inl rfl), ?_,
    fun d' => recalls_iff hRows' hSort hListed⟩
  · rw [on_set hRows, hEncode]
  · rw [on_set hRows', hEncode']
  · rintro rfl
    have hThere : u.row ∈ Row.upsert t.row rows :=
      Row.mem_upsert_iff.mpr (.inl rfl)
    rw [Row.upsert, if_pos hThere, hSort] at hSort'
    exact (List.map_injective_iff.mpr
      (fun _ _ => Triple.row_inj.mp) hSort').symm

/-
  Equal values are encoded alike exactly if no zero in one faces
  a zero of the other sign.  On any connection that requests
  lead to, an equal value that is set after another one then
  adds no triple, and the query for it and its deletion find
  what was set.  Otherwise there are two triples.
-/
theorem recalls_equal_value
    (s : Store)
    (c : Connection)
    (hReach : c.Reachable)
    (hTable : c.content.hasTable s.collection = true)
    {v w : Value}
    (hEquals : v.equals w = true)
    {x y : String}
    (hEncode : encode v.toDatum = .ok x)
    (hEncode' : encode w.toDatum = .ok y) :
    (x = y ↔ v.SameSigns w) ∧
    ∀ subject predicate, ∃ c' c'' ts us,
      (s.set subject predicate v.toDatum).on c = (.ok (), c') ∧
      (s.list .all).on c' = (.ok ts, c') ∧
      (s.set subject predicate w.toDatum).on c' =
        (.ok (), c'') ∧
      (s.list .all).on c'' = (.ok us, c'') ∧
      ⟨subject, predicate, x⟩ ∈ us ∧
      ⟨subject, predicate, y⟩ ∈ us ∧
      (v.SameSigns w → us = ts) ∧
      (s.Recalls c' ts ⟨subject, predicate, x⟩ w.toDatum ↔
        v.SameSigns w) := by
  have hSame := Value.encodings_eq_iff_of_equals hEquals hEncode
    hEncode'
  refine ⟨hSame, ?_⟩
  intro subject predicate
  rcases exists_set_both hReach hTable hEncode hEncode' subject
      predicate with
    ⟨c', c'', ts, us, hSet, hList, hSet', hList', hFirst, hSecond,
      hOnce, hRecalls⟩
  refine ⟨c', c'', ts, us, hSet, hList, hSet', hList', hFirst,
    hSecond, fun hSigns => hOnce (hSame.mpr hSigns), ?_⟩
  rw [hRecalls, hEncode', Except.ok.injEq, eq_comm, hSame]

/-
  Below a list, two zeros of opposite signs.  The value that was
  set recalls its triple, and the equal one does not.
-/
theorem recalls_equal_value_people :
    let v : Value :=
      .list [.float ⟨false, 0⟩, .map [("a", .integer 1)]]
    let w : Value :=
      .list [.float ⟨true, 0⟩, .map [("a", .integer 1)]]
    let t : Triple := ⟨"ann", "mark", "[0.0,\x7b\"a\":1\x7d]"⟩
    v.equals w = true ∧ ¬ v.SameSigns w ∧
      ∃ c' ts,
        (set ⟨"people"⟩ "ann" "mark" v.toDatum).on
          (.fresh "people") = (.ok (), c') ∧
        (list ⟨"people"⟩ .all).on c' = (.ok ts, c') ∧
        Recalls ⟨"people"⟩ c' ts t v.toDatum ∧
        ¬ Recalls ⟨"people"⟩ c' ts t w.toDatum := by
  intro v w t
  have hFold : foldName "people" = "people" := foldName_eq_self rfl
  have hReach : (Connection.fresh "people").Reachable :=
    Connection.reachable_fresh (by decide) hFold (by decide)
  have hTable := Connection.hasTable_fresh hFold
  have hEncode : encode v.toDatum = .ok t.encoded := rfl
  have hEncode' : encode w.toDatum =
      .ok "[-0.0,\x7b\"a\":1\x7d]" := rfl
  have hSelf : v.equals v = true := rfl
  have hEquals : v.equals w = true := rfl
  have hSigns : v.SameSigns v := by
    simp [v, Value.SameSigns, Value.SameSignsItems,
      Value.SameSignsEntries]
  have hApart : ¬ v.SameSigns w := by
    simp [v, w, Value.SameSigns, Value.SameSignsItems,
      Binary.isZero]
  rcases (recalls_equal_value ⟨"people"⟩ _ hReach hTable hSelf
      hEncode hEncode).2 "ann" "mark" with
    ⟨c', _, ts, _, hSet, hList, _, _, _, _, _, hRecalls⟩
  rcases (recalls_equal_value ⟨"people"⟩ _ hReach hTable hEquals
      hEncode hEncode').2 "ann" "mark" with
    ⟨d', _, ts', _, hSet', hList', _, _, _, _, _, hRecalls'⟩
  rw [hSet, Prod.mk.injEq] at hSet'
  rcases hSet' with ⟨_, rfl⟩
  rw [hList, Prod.mk.injEq, Except.ok.injEq] at hList'
  rcases hList' with ⟨rfl, _⟩
  refine ⟨hEquals, hApart, c', ts, hSet, hList,
    hRecalls.mpr hSigns, ?_⟩
  rw [hRecalls']
  exact hApart

end Store

end Factbase
