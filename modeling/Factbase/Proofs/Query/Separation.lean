import Factbase.Proofs.Data.Distinct
import Factbase.Proofs.Query.Chains
import Factbase.Proofs.Query.Moments

/-
  Values that are told apart in a store.

  A store tells values apart exactly if their encodings differ.
  Values that do not face each other are stored as two triples
  of one subject and one predicate.  A query that asks for one
  of them finds a subject by a triple with that value only, and
  a deletion of one of them leaves the other.

  Key definitions include:
    * `Query.AsksFor`
    * `Store.Spares`

  Main declarations:
    * `Query.AsksFor.holds`
    * `Store.spares_of_ne`
    * `Store.encode_keeps_apart`
    * `Store.encode_joins_midminute`
-/

namespace Factbase

variable {ts us : List Triple}
variable {t u : Triple}
variable {d : Datum}
variable {v : String}

------------------------------------------------------------
-- Queries That Ask for a Datum
------------------------------------------------------------

namespace Query

/-
  A query was built with a datum for a predicate, as the first
  condition or as one of those that were added.
-/
inductive AsksFor
    (predicate : String)
    (d : Datum) : Query → Prop where
  | start
      {m : MatchQuery}
      (hStart : whereEq predicate d = .ok m) :
      AsksFor predicate d (.matching m)
  | narrow
      {q q' : Query}
      (hTakes : q.Takes (.narrow (.whereEq predicate d)) q') :
      AsksFor predicate d q'
  | step
      {q q' : Query}
      {step : Step}
      (hAsks : AsksFor predicate d q)
      (hTakes : q.Takes step q') :
      AsksFor predicate d q'

variable {q : Query}
variable {predicate subject : String}

/- What such a query selects has the datum for the predicate. -/
theorem AsksFor.holds
    (hEncode : encode d = .ok v)
    (hAsks : AsksFor predicate d q)
    (hSelects : q.Selects ts subject) :
    Clause.Holds ts subject ⟨predicate, v⟩ := by
  induction hAsks with
  | start hStart =>
      rcases whereEq_eq_ok_iff.mp hStart with ⟨w, hOther, rfl⟩
      rw [hEncode, Except.ok.injEq] at hOther
      rw [hOther]
      exact hSelects.1
  | narrow hTakes =>
      have hHolds := (hTakes.narrows.selects ts subject).mp hSelects
      exact (holds_whereEq_iff hEncode).mp hHolds.2
  | @step _ _ step _ hTakes ih =>
      cases step with
      | narrow r =>
          exact ih
            ((hTakes.narrows.selects ts subject).mp hSelects).1
      | first count =>
          rcases hTakes.first_cases with ⟨r, rfl, rfl⟩
          exact ih hSelects

/- What a query lists is of subjects that it selects. -/
theorem Lists.selects
    (hLists : q.Lists ts us)
    (hListed : u ∈ us) : q.Selects ts u.subject := by
  cases hLists with
  | chosen _ =>
      simpa using (List.mem_filter.mp hListed).2
  | ranked _ hRanking =>
      rcases List.mem_flatMap.mp hListed with ⟨a, hPlace, hOwn⟩
      have hSubject : u.subject = a.1 := by
        simpa using (List.mem_filter.mp hOwn).2
      rw [hSubject, ← hRanking.selected]
      exact List.mem_map_of_mem
        ((cutTo_sublist _ _).subset hPlace)

end Query

------------------------------------------------------------
-- Spared Triples
------------------------------------------------------------

/- A command that adds triples removes none. -/
theorem Command.not_removes_of_adds
    {command : Command}
    (hAdds : command.Adds t) : ¬ command.Removes u := by
  cases command with
  | set | setMany | setProperties => exact id
  | deleteValue | deletePredicate | deleteSubject =>
      exact False.elim hAdds

namespace Store

variable {s : Store}
variable {c : Connection}

/-
  A datum does not stand for the value of a triple, where all
  triples are listed: no deletion of the datum takes the triple
  away, and a query that asks for the datum lists its subject
  only for another triple, which has the datum.
-/
structure Spares
    (s : Store)
    (c : Connection)
    (ts : List Triple)
    (t : Triple)
    (d : Datum) : Prop where
  kept : ∀ subject predicate, ∃ c' us,
    (s.deleteValue subject predicate d).on c = (.ok (), c') ∧
      (s.list .all).on c' = (.ok us, c') ∧ t ∈ us
  missed : ∀ q us, Query.AsksFor t.predicate d q →
    (s.list q).on c = (.ok us, c) →
      (∃ u ∈ us, u.subject = t.subject) →
        ∃ u ∈ ts, u ≠ t ∧ u.subject = t.subject ∧
          u.predicate = t.predicate ∧ encode d = .ok u.encoded

/- What a query lists follows from the list of all triples. -/
theorem lists_of_list
    (hReach : c.Reachable)
    (hAll : (s.list .all).on c = (.ok ts, c))
    {q : Query}
    (hList : (s.list q).on c = (.ok us, c)) : q.Lists ts us := by
  have hAnswers : s.Answers c q := by
    by_contra hNone
    rcases on_list_of_not_answers hNone with ⟨fault, hFault⟩
    rw [hFault] at hList
    cases hList
  rcases exists_lists hReach hAnswers.table with
    ⟨ts', hAll', _, hLists⟩
  rw [hAll', Prod.mk.injEq, Except.ok.injEq] at hAll
  rcases hLists q hAnswers with ⟨us', hLists, hList'⟩
  rw [hList', Prod.mk.injEq, Except.ok.injEq] at hList
  rwa [hAll.1, hList.1] at hLists

/- A triple is spared by the data with another encoding. -/
theorem spares_of_ne
    (hReach : c.Reachable)
    (hTable : c.content.hasTable s.collection = true)
    (hAll : (s.list .all).on c = (.ok ts, c))
    (hListed : t ∈ ts)
    (hEncode : encode d = .ok v)
    (hOther : v ≠ t.encoded) : s.Spares c ts t d := by
  rcases Database.hasTable_iff.mp hTable with ⟨rows, hRows⟩
  rcases (hReach.rows_sound hRows).exists_triples with
    ⟨ts', hSort, _⟩
  have hSame := on_list_all hRows hSort
  rw [hAll, Prod.mk.injEq, Except.ok.injEq] at hSame
  rw [← hSame.1] at hSort
  constructor
  · intro subject predicate
    refine ⟨_, _, ?_,
      on_list_all_delete hRows hSort ⟨subject, predicate, v⟩, ?_⟩
    · rw [on_deleteValue hRows, hEncode]
    · refine List.mem_filter.mpr ⟨hListed, ?_⟩
      rw [decide_eq_true_eq]
      rintro rfl
      exact hOther rfl
  · rintro q us hAsks hList ⟨u, hFound, hSubject⟩
    have hHolds := hAsks.holds hEncode
      ((lists_of_list hReach hAll hList).selects hFound)
    rw [hSubject] at hHolds
    refine ⟨_, hHolds, ?_, rfl, rfl, hEncode⟩
    intro hSame
    exact hOther (congrArg Triple.encoded hSame)

/- After a run on sound rows, its history is what is listed. -/
theorem exists_list_runAll
    {rows : List Row}
    (hRows : c.content.rows s.collection = .ok rows)
    (hSound : Row.Sound rows)
    (commands : List Command) :
    ∃ answers c' ts,
      s.runAll commands c = (answers, c') ∧
      List.Forall₂
        (fun command answer =>
          answer = .ok () ↔ command.Succeeds c.inTransaction)
        commands answers ∧
      (s.list .all).on c' = (.ok ts, c') ∧
      ts.Pairwise (fun t u => t.key < u.key) ∧
      ∀ t, t ∈ ts ↔
        t ∈ (commands.zip answers).foldl Command.leave
          {t | t.row ∈ rows} := by
  rcases runAll_performed hRows hSound commands with
    ⟨answers, c', rows', hRun, hRows', hSound', hAnswers,
      hMember⟩
  rcases hSound'.exists_triples with ⟨ts, hSort, hAscending⟩
  refine ⟨answers, c', ts, hRun, hAnswers,
    on_list_all hRows' hSort, hAscending, fun t => ?_⟩
  rw [← hMember, ← Row.mem_sort_iff, hSort]
  simp

/- Two writes one after another leave the triples of both. -/
theorem exists_both_listed
    (hReach : c.Reachable)
    (hTable : c.content.hasTable s.collection = true)
    {first second : Command}
    (hFirst : first.Succeeds c.inTransaction)
    (hSecond : second.Succeeds c.inTransaction)
    (hAdds : first.Adds t)
    (hAdds' : second.Adds u) :
    ∃ c' ts, s.runAll [first, second] c = ([.ok (), .ok ()], c') ∧
      (s.list .all).on c' = (.ok ts, c') ∧ t ∈ ts ∧ u ∈ ts := by
  rcases Database.hasTable_iff.mp hTable with ⟨rows, hRows⟩
  rcases exists_list_runAll hRows (hReach.rows_sound hRows)
    [first, second] with
    ⟨answers, c', ts, hRun, hAnswers, hList, _, hMember⟩
  have hBoth : answers = [.ok (), .ok ()] := by
    cases hAnswers with | cons hOne hAnswers =>
    cases hAnswers with | cons hTwo hAnswers =>
    cases hAnswers
    rw [hOne.mpr hFirst, hTwo.mpr hSecond]
  refine ⟨c', ts, by rw [hRun, hBoth], hList, ?_, ?_⟩
  · rw [hMember, hBoth]
    exact .inl ⟨.inr hAdds, Command.not_removes_of_adds hAdds'⟩
  · rw [hMember, hBoth]
    exact .inr hAdds'

/-
  Values with one encoding have one structure and the same
  leaves, up to timestamps and the texts that spell them, and up
  to timestamps that settle on one instant.  On any connection
  that requests lead to, all others are stored as two triples,
  and neither stands for the value of the other.
-/
theorem encode_keeps_apart
    (s : Store)
    (c : Connection)
    (hReach : c.Reachable)
    (hTable : c.content.hasTable s.collection = true)
    {v w : Value}
    (hSupported : ∀ u ∈ v.nodes, u.IsSupported)
    (hSupported' : ∀ u ∈ w.nodes, u.IsSupported)
    {x y : String}
    (hEncode : encode v.toDatum = .ok x)
    (hEncode' : encode w.toDatum = .ok y) :
    (x = y → v.Faces w) ∧
    (¬ v.Faces w → x ≠ y ∧
      (∀ (first second : Command) subject predicate,
        first.Adds ⟨subject, predicate, x⟩ →
        second.Adds ⟨subject, predicate, y⟩ →
        first.Succeeds c.inTransaction →
        second.Succeeds c.inTransaction →
          ∃ c' ts,
            s.runAll [first, second] c =
              ([.ok (), .ok ()], c') ∧
            (s.list .all).on c' = (.ok ts, c') ∧
            ⟨subject, predicate, x⟩ ∈ ts ∧
            ⟨subject, predicate, y⟩ ∈ ts) ∧
      ∃ ts, (s.list .all).on c = (.ok ts, c) ∧ ∀ t ∈ ts,
        (t.encoded = x → s.Spares c ts t w.toDatum) ∧
        (t.encoded = y → s.Spares c ts t v.toDatum)) := by
  have hFaces : x = y → v.Faces w := by
    rintro rfl
    exact Value.faces_of_encode_eq hSupported hSupported' hEncode
      hEncode'
  refine ⟨hFaces, fun hApart => ?_⟩
  have hTexts : x ≠ y := fun hSame => hApart (hFaces hSame)
  refine ⟨hTexts, ?_, ?_⟩
  · intro first second subject predicate hAdds hAdds' hFirst
      hSecond
    exact exists_both_listed hReach hTable hFirst hSecond hAdds
      hAdds'
  · rcases exists_lists hReach hTable with ⟨ts, hAll, _⟩
    refine ⟨ts, hAll, fun t hListed => ⟨?_, ?_⟩⟩
    · rintro rfl
      exact spares_of_ne hReach hTable hAll hListed hEncode'
        hTexts.symm
    · rintro rfl
      exact spares_of_ne hReach hTable hAll hListed hEncode
        hTexts

/-
  A leap second in the middle of a minute is stored as the second
  that follows, so the deletion of one takes away the other.
-/
theorem encode_joins_midminute :
    let odd : Value := .timestamp ⟨1546516800, 1500000000⟩
    let shown : Value := .timestamp ⟨1546516801, 500000000⟩
    let text := "\"2019-01-03T12:00:01.500000000Z\""
    let people := ((set ⟨"people"⟩ "ann" "met" odd.toDatum).on
      (.fresh "people")).2
    (∀ u ∈ odd.nodes, u.IsSupported) ∧
      (∀ u ∈ shown.nodes, u.IsSupported) ∧ odd ≠ shown ∧
      encode odd.toDatum = .ok text ∧
      encode shown.toDatum = .ok text ∧
      (list ⟨"people"⟩ .all).on people =
        (.ok [⟨"ann", "met", text⟩], people) ∧
      ∃ c', (deleteValue ⟨"people"⟩ "ann" "met" shown.toDatum).on
          people = (.ok (), c') ∧
        (list ⟨"people"⟩ .all).on c' = (.ok [], c') := by
  intro odd shown text people
  have hEncode : encode odd.toDatum = .ok text := by decide +kernel
  have hEncode' : encode shown.toDatum = .ok text := by
    decide +kernel
  have hFold : foldName "people" = "people" :=
    foldName_eq_self rfl
  have hRows := Connection.rows_fresh hFold
  let t : Triple := ⟨"ann", "met", text⟩
  have hPeople : people =
      (Connection.fresh "people").alter "people"
        (Row.upsert t.row) := by
    have hSet := on_set (s := ⟨"people"⟩) hRows "ann" "met"
      odd.toDatum
    rw [hEncode] at hSet
    exact congrArg Prod.snd hSet
  have hRows' := Connection.rows_alter hRows (Row.upsert t.row)
  rw [← hPeople] at hRows'
  have hSort : Row.sort (Row.upsert t.row []) =
      [t].map Triple.row := by
    simp [Row.upsert, Row.sort]
  have hDelete := on_deleteValue (s := ⟨"people"⟩) hRows' "ann"
    "met" shown.toDatum
  rw [hEncode'] at hDelete
  have hOdd : Instant.Supported ⟨1546516800, 1500000000⟩ := by
    decide
  have hShown : Instant.Supported ⟨1546516801, 500000000⟩ := by
    decide
  refine ⟨by simp [odd, Value.nodes, Value.IsSupported, hOdd],
    by simp [shown, Value.nodes, Value.IsSupported, hShown],
    by simp [odd, shown], hEncode, hEncode',
    on_list_all hRows' hSort, _, hDelete, ?_⟩
  simpa [t] using on_list_all_delete hRows' hSort t

/-
  A whole number as a float and as an integer, below a text that
  spells a timestamp and that timestamp.
-/
theorem encode_keeps_apart_people :
    let one : Binary64 := ⟨false, 0x3ff0000000000000⟩
    let start : Instant := ⟨1546516800, 0⟩
    let v : Value := .list
      [.text "2019-01-03T12:00:00.000000000Z", .float one]
    let w : Value := .list [.timestamp start, .integer 1]
    let x := "[\"2019-01-03T12:00:00.000000000Z\",1.0]"
    let y := "[\"2019-01-03T12:00:00.000000000Z\",1]"
    encode v.toDatum = .ok x ∧ encode w.toDatum = .ok y ∧
      ¬ v.Faces w ∧ x ≠ y ∧
      ∃ c' ts,
        runAll ⟨"people"⟩
            [.set "ann" "age" v.toDatum,
              .set "ann" "age" w.toDatum]
            (.fresh "people") = ([.ok (), .ok ()], c') ∧
          (list ⟨"people"⟩ .all).on c' = (.ok ts, c') ∧
          ⟨"ann", "age", x⟩ ∈ ts ∧ ⟨"ann", "age", y⟩ ∈ ts := by
  intro one start v w x y
  have hFold : foldName "people" = "people" := foldName_eq_self rfl
  have hEncode : encode v.toDatum = .ok x := by decide +kernel
  have hEncode' : encode w.toDatum = .ok y := by decide +kernel
  have hSupported : ∀ u ∈ v.nodes, u.IsSupported := by
    simp [v, Value.nodes, Value.nodesOfItems, Value.IsSupported]
  have hSupported' : ∀ u ∈ w.nodes, u.IsSupported := by
    have hStart : start.Supported := by decide
    simp [w, Value.nodes, Value.nodesOfItems, Value.IsSupported,
      hStart]
  have hApart : ¬ v.Faces w := by
    simp [v, w, Value.Faces, Value.FacesItems]
  rcases encode_keeps_apart ⟨"people"⟩ (.fresh "people")
    (Connection.reachable_fresh (by decide) hFold (by decide))
    (Connection.hasTable_fresh hFold) hSupported hSupported'
    hEncode hEncode' with ⟨_, hOthers⟩
  rcases hOthers hApart with ⟨hTexts, hStored, _⟩
  exact ⟨hEncode, hEncode', hApart, hTexts,
    hStored _ _ "ann" "age" ⟨rfl, rfl, hEncode⟩
      ⟨rfl, rfl, hEncode'⟩ ⟨_, hEncode⟩ ⟨_, hEncode'⟩⟩

end Store

end Factbase
