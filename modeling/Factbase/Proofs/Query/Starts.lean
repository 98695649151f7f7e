import Factbase.Proofs.Data.Prefixes
import Factbase.Proofs.Query.Answers
import Factbase.Proofs.Store.Written

/-
  Subjects by the start of a string.

  The values of a collection that only stores have written to
  are encodings, so the encoded start that a query compares
  decides about the strings that the values decode as.

  Main declarations:
    * `hasStart_encodePrefix_iff`
    * `Store.list_begins`
-/

namespace Factbase

variable {ts us : List Triple}
variable {subject : String}

/- A subject has a value that is a string with a start. -/
def HasString
    (ts : List Triple)
    (subject predicate start : String) : Prop :=
  ∃ t ∈ ts, t.subject = subject ∧ t.predicate = predicate ∧
    ∃ s, t.read .text = .ok s ∧ start.toList <+: s.toList

/- Encoded values are compared as the strings they encode. -/
theorem hasStart_encodePrefix_iff
    (hEncoded : ∀ t ∈ ts, ∃ d, encode d = .ok t.encoded)
    (predicate start : String) :
    HasStart ts subject predicate (encodePrefix start) ↔
      HasString ts subject predicate start := by
  apply exists_congr
  intro t
  apply and_congr_right
  intro hMember
  rcases hEncoded t hMember with ⟨d, hEncode⟩
  rw [encodePrefix_prefix_iff hEncode]
  rfl

theorem Query.selects_begins_iff
    (predicate start : String) :
    (Query.matching (begins predicate start)).Selects ts
        subject ↔
      HasStart ts subject predicate (encodePrefix start) := by
  simp [Selects, Starts, begins, Primary.Holds, wheres, has,
    without]

namespace Store

/- What is listed where only stores have written is encoded. -/
theorem encoded_of_list
    {s : Store}
    {c : Connection}
    {q : Query}
    (hWritten : c.Written)
    (hList : (s.list q).on c = (.ok us, c)) :
    ∀ t ∈ us, ∃ d, encode d = .ok t.encoded := by
  intro t hListed
  rw [on_list] at hList
  cases hPrepare : c.content.prepare s.collection
      q.statement.template with
  | error fault => simp [hPrepare] at hList
  | ok rows =>
      simp only [hPrepare, Prod.mk.injEq, and_true] at hList
      have hRow : t.row ∈ rows := by
        apply Statement.mem_of_mem_list (q := q.statement)
        rw [Row.eq_map_row_of_readAll hList]
        exact List.mem_map_of_mem hListed
      rcases hWritten.rows_encoded
          (Database.rows_of_prepare hPrepare) _ hRow with
        ⟨u, d, hSame, hEncode⟩
      rw [Triple.row_inj.mp hSame]
      exact ⟨d, hEncode⟩

/-
  On any connection that only stores have written to, the query
  for a start of strings lists a subject exactly if one of its
  values decodes as a string with this start.  On a collection
  that has the name of the set that the statement makes, it
  fails.
-/
theorem list_begins
    (s : Store)
    (c : Connection)
    (hWritten : c.Written)
    (hTable : c.content.hasTable s.collection = true)
    (predicate start : String) :
    (foldName s.collection ≠ "candidates" →
      ∃ ts us,
        (s.list .all).on c = (.ok ts, c) ∧
        (s.list (.matching (begins predicate start))).on c =
          (.ok us, c) ∧
        ∀ subject, subject ∈ us.map Triple.subject ↔
          HasString ts subject predicate start) ∧
    (foldName s.collection = "candidates" →
      (s.list (.matching (begins predicate start))).on c =
        (.error (.execution
          (.circularReference "candidates")), c)) := by
  rcases Database.hasTable_iff.mp hTable with ⟨rows, hRows⟩
  have hTerms : (Query.matching (begins predicate start)).sets ≤
      Database.mostTerms := by
    simp [Query.sets, begins, Query.wheres, Query.has,
      Query.without, Database.mostTerms]
  constructor
  · intro hName
    rcases exists_lists hWritten.reachable hTable with
      ⟨ts, hAll, _, hEach⟩
    have hAnswers : s.Answers c
        (.matching (begins predicate start)) :=
      ⟨hTable, hTerms, by simpa [Query.ownNames] using hName⟩
    rcases hEach _ hAnswers with ⟨us, hLists, hList⟩
    refine ⟨ts, us, hAll, hList, ?_⟩
    intro subject
    rw [hLists.mem_subjects_iff rfl, Query.selects_begins_iff,
      hasStart_encodePrefix_iff (encoded_of_list hWritten hAll)]
    constructor
    · exact And.right
    · intro hHolds
      have hThere : subject ∈ ts.map Triple.subject := by
        rcases hHolds with ⟨t, hMember, rfl, _⟩
        exact List.mem_map_of_mem hMember
      exact ⟨hThere, hHolds⟩
  · intro hName
    rw [on_list_query hRows, if_neg (Nat.not_lt.mpr hTerms),
      hName, if_pos (by simp [Query.ownNames])]

/-
  The same writes to two collections: a string with the start
  and a number.  Only the name of the second one makes the query
  fail.
-/
theorem list_begins_people_candidates :
    let q : Query := .matching (begins "p" "a")
    let writes : List Command :=
      [.set "s" "p" (.text "abc"), .set "t" "p" (.integer 1)]
    let people := (runAll ⟨"people"⟩ writes (.fresh "people")).2
    let others :=
      (runAll ⟨"candidates"⟩ writes (.fresh "candidates")).2
    (∃ ts us,
      (list ⟨"people"⟩ .all).on people = (.ok ts, people) ∧
      (list ⟨"people"⟩ q).on people = (.ok us, people) ∧
      ∀ subject, subject ∈ us.map Triple.subject ↔
        HasString ts subject "p" "a") ∧
    (list ⟨"candidates"⟩ q).on others =
      (.error (.execution (.circularReference "candidates")),
        others) := by
  intro q writes people others
  have hPeople : foldName "people" = "people" :=
    foldName_eq_self rfl
  have hOthers : foldName "candidates" = "candidates" :=
    foldName_eq_self rfl
  have hWrittenPeople : people.Written :=
    (Connection.written_fresh (by decide) hPeople
      (by decide)).runAll _ writes
  have hWrittenOthers : others.Written :=
    (Connection.written_fresh (by decide) hOthers
      (by decide)).runAll _ writes
  constructor
  · exact (list_begins ⟨"people"⟩ people hWrittenPeople
      (hasTable_runAll (Connection.hasTable_fresh hPeople) _)
      "p" "a").1 (by rw [hPeople]; decide)
  · exact (list_begins ⟨"candidates"⟩ others hWrittenOthers
      (hasTable_runAll (Connection.hasTable_fresh hOthers) _)
      "p" "a").2 hOthers

end Store

end Factbase
