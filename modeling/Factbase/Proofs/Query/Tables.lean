import Factbase.Proofs.Query.Phrases
import Factbase.Query.Compile

/-
  The tables that the statements of queries address.

  The rows of a query, and whether there are any, are asked for
  in a text that names the table of the collection again and
  again, and otherwise only the sets that it defines itself.

  Main declarations:
    * `Sql.isPhrase_combined`
    * `Sql.isPhrase_candidates`
    * `Sql.isPhrase_ranking`
    * `Sql.namesTable_rows`
    * `Sql.namesTable_exist`
-/

namespace Factbase

namespace Sql

------------------------------------------------------------
-- Parts of Queries
------------------------------------------------------------

/- A condition names no table, with and without the alias. -/
theorem isPhrase_condition (t : Test) :
    IsPhrase (fun _ => condition "" t)
        (.ahead 1) (.ahead 1) [] [] ∧
      IsPhrase (fun _ => condition "t." t)
        (.ahead 1) (.ahead 1) [] [] := by
  rcases t with _ | _ | _ | (_ | _) <;>
    exact ⟨isPhrase_words (by decide), isPhrase_words (by decide)⟩

/- A set of subjects names the table once. -/
theorem isPhrase_distinct (t : Test) :
    IsPhrase (fun name => distinct (quoteIdentifier name) t)
      (.ahead 1) (.ahead 1) [.table] [] := by
  unfold distinct
  exact isPhrase_words (by decide)
    |>.before (fun _ => by decide) isPhrase_table_ahead
    |>.plain (by decide) (by decide)
    |>.next (by decide) (isPhrase_condition t).1

theorem startsApart_operator (op : SetOperator) :
    startsApart (operator op) = true := by
  cases op <;> decide

/- Further sets start apart, if there are any. -/
theorem parted_combined
    (front : List Char)
    (table : String)
    (rest : List (SetOperator × Test)) :
    Parted front (combined table rest).toList := by
  cases rest with
  | nil => exact .inr nofun
  | cons term rest =>
      rcases term with ⟨op, t⟩
      unfold combined
      exact parted_of_startsApart (startsApart_append
        (startsApart_append (startsApart_operator op) _) _) front

/- The induction is on the sets still to be combined. -/
theorem isPhrase_combined (rest : List (SetOperator × Test)) :
    IsPhrase (fun name => combined (quoteIdentifier name) rest)
      (.ahead 1) (.ahead 1)
      (List.replicate rest.length .table) [] := by
  induction rest with
  | nil =>
      unfold combined
      exact isPhrase_words (by decide)
  | cons term rest ih =>
      rcases term with ⟨op, t⟩
      have hOperator : IsPhrase (fun _ => operator op) (.ahead 1)
          (.ahead 1) [] [] := by
        cases op <;> exact isPhrase_words (by decide)
      have hEnds : endsApart (operator op) = true := by
        cases op <;> decide
      unfold combined
      exact hOperator
        |>.before (fun _ => hEnds) (isPhrase_distinct t)
        |>.append ih fun _ => parted_combined _ _ _

/- The start of a definition, without what is in parentheses. -/
def defining (set : String) : List Token :=
  [.word set.toList, .mark '(', .mark ')', .word "AS".toList,
    .mark '(']

/- The same for the set that a statement starts from. -/
def withCandidates : List Token :=
  .word "WITH".toList :: defining "candidates"

/- The end of the definition of a set. -/
theorem isPhrase_close :
    IsPhrase (fun _ => " )") (.ahead 1) (.ahead 0) []
      [.mark ')'] :=
  isPhrase_unnamed (by decide)

/-
  The candidates name the table in each of their sets, and
  define one name ahead of what the statement does.
-/
theorem isPhrase_candidates (c : Compound) :
    IsPhrase (fun name => candidates (quoteIdentifier name) c)
      (.ahead 0) (.ahead 0)
      (.table :: List.replicate c.rest.length .table)
      (withCandidates ++ [.mark ')']) := by
  have hOpen : IsPhrase (fun _ => "WITH candidates(found) AS ( ")
      (.ahead 0) (.ahead 1) [] withCandidates :=
    isPhrase_unnamed (by decide)
  unfold candidates
  refine (hOpen
    |>.before (fun _ => by decide) (isPhrase_distinct c.first)
    |>.append (isPhrase_combined c.rest)
      (fun _ => parted_combined _ _ _)
    |>.andThen (fun _ => by decide) isPhrase_close
    |>.of_eq ?_ ?_)
  · simp
  · rfl

theorem isPhrase_aggregate (d : Direction) :
    IsPhrase (fun _ => aggregate d) (.ahead 1) (.ahead 1) [] [] := by
  cases d <;> exact isPhrase_words (by decide)

theorem isPhrase_order (d : Direction) :
    IsPhrase (fun _ => order d) (.ahead 1) (.ahead 1) [] [] ∧
      IsPhrase (fun _ => order d) (.within 0) (.within 0) [] [] := by
  cases d <;>
    exact ⟨isPhrase_words (by decide), isPhrase_words (by decide)⟩

theorem isPhrase_limit (limited : Bool) :
    IsPhrase (fun _ => if limited then " LIMIT ?" else "")
      (.ahead 1) (.ahead 1) [] [] := by
  cases limited <;> exact isPhrase_words (by decide)

theorem parted_limit
    (front : List Char)
    (limited : Bool) :
    Parted front (if limited then " LIMIT ?" else "").toList := by
  cases limited with
  | false => exact .inr nofun
  | true => exact parted_of_startsApart (by decide) front

/-
  A ranking names the table and the candidates, and defines a
  further name.
-/
theorem isPhrase_ranking (k : Ranking) :
    IsPhrase (fun name => ranking (quoteIdentifier name) k)
      (.ahead 0) (.ahead 0)
      [.table, .set "candidates"]
      (defining "ordered_subjects" ++ [.mark ')']) := by
  have hOpen : IsPhrase
      (fun _ => "ordered_subjects(found, ordering) AS ( ")
      (.ahead 0) (.ahead 1) []
      (defining "ordered_subjects") :=
    isPhrase_unnamed (by decide)
  have hSubject : IsPhrase (fun _ => "SELECT t.subject AS found, ")
      (.ahead 1) (.ahead 1) [] [] :=
    isPhrase_words (by decide)
  have hJoin : IsPhrase (fun _ =>
      "INNER JOIN candidates ON t.subject = candidates.found ")
      (.ahead 1) (.ahead 1)
      [.set "candidates"] [] :=
    isPhrase_set (by decide)
  have hWhere : IsPhrase (fun _ => "WHERE ") (.ahead 1) (.ahead 1)
      [] [] :=
    isPhrase_words (by decide)
  unfold ranking
  exact hOpen
    |>.before (fun _ => by decide) hSubject
    |>.next (by decide) (isPhrase_aggregate k.direction)
    |>.plain (by decide) (by decide)
    |>.next (by decide) isPhrase_table_ahead
    |>.plain (r := .ahead 1) (by decide) (by decide)
    |>.next (by decide) hJoin
    |>.next (by decide) hWhere
    |>.next (by decide) (isPhrase_condition k.test).2
    |>.plain (by decide) (by decide)
    |>.next (by decide) (isPhrase_order k.direction).1
    |>.plain (by decide) (by decide)
    |>.append (isPhrase_limit k.limited)
      (fun _ => parted_limit _ k.limited)
    |>.andThen (fun _ => by decide) isPhrase_close
    |>.of_eq rfl rfl

/- The sets of an ordered scan. -/
theorem isPhrase_rankedSets
    (c : Compound)
    (k : Ranking) :
    IsPhrase (fun name => candidates (quoteIdentifier name) c
        ++ ", " ++ ranking (quoteIdentifier name) k)
      (.ahead 0) (.ahead 0)
      (.table :: List.replicate c.rest.length .table
        ++ [.table, .set "candidates"])
      (withCandidates ++ [.mark ')', .mark ',']
        ++ defining "ordered_subjects" ++ [.mark ')']) := by
  have hComma : IsPhrase (fun _ => ", ") (.ahead 0) (.ahead 0) []
      [.mark ','] :=
    isPhrase_unnamed (by decide)
  refine (isPhrase_candidates c
    |>.andThen (fun _ => by decide) hComma
    |>.next (by decide) (isPhrase_ranking k)
    |>.of_eq ?_ rfl)
  rw [List.append_nil]

/- The rows of the table, after the sets of a statement. -/
theorem isPhrase_joinedRows :
    IsPhrase (fun name => joinedRows (quoteIdentifier name))
      (.ahead 0) (.within 0) [.table] [] := by
  unfold joinedRows
  exact isPhrase_words (by decide)
    |>.before (fun _ => by decide) (isPhrase_table 0)
    |>.plain (by decide) (by decide)

theorem endsApart_joinedRows (front table : String) :
    endsApart (front ++ joinedRows table) = true :=
  endsApart_append (endsApart_append (by decide) _) front

/- The rows whose subjects are among the candidates. -/
theorem isPhrase_candidateRows (c : Compound) :
    IsPhrase (fun name => candidates (quoteIdentifier name) c ++ " "
        ++ joinedRows (quoteIdentifier name)
        ++ "INNER JOIN candidates ON t.subject = candidates.found ")
      (.ahead 0) (.within 0)
      (.table :: List.replicate c.rest.length .table ++ [.table]
        ++ [.set "candidates"])
      (withCandidates ++ [.mark ')']) := by
  have hJoin : IsPhrase (fun _ =>
      "INNER JOIN candidates ON t.subject = candidates.found ")
      (.within 0) (.within 0)
      [.set "candidates"] [] :=
    isPhrase_set (by decide)
  exact isPhrase_candidates c
    |>.plain (by decide) (by decide)
    |>.next (by decide) isPhrase_joinedRows
    |>.before (fun _ => endsApart_joinedRows _ _) hJoin

------------------------------------------------------------
-- Queries
------------------------------------------------------------

/- The text of a list names its table, besides its own sets. -/
theorem namesTable_rows (t : Template) :
    NamesTable (fun name => rows (quoteIdentifier name) t)
      t.names := by
  cases t with
  | everything | about =>
      exact namesTable_between 0 (by decide) (by decide)
        (by decide) (by decide)
  | aboutAmong c =>
      have hWhere : IsPhrase (fun _ =>
          "WHERE t.subject = ? ORDER BY t.predicate, t.value")
          (.within 0) (.within 0) [] [] :=
        isPhrase_words (by decide)
      refine ⟨_, _, _, isPhrase_candidateRows c
        |>.next (by decide) hWhere, ?_, ?_, rfl⟩
      · simp
      · simp [Template.names, List.replicate_subset]
  | among c =>
      have hOrder : IsPhrase (fun _ =>
          "ORDER BY t.subject, t.predicate, t.value")
          (.within 0) (.within 0) [] [] :=
        isPhrase_words (by decide)
      refine ⟨_, _, _, isPhrase_candidateRows c
        |>.next (by decide) hOrder, ?_, ?_, rfl⟩
      · simp
      · simp [Template.names, List.replicate_subset]
  | ranked c k =>
      have hJoin : IsPhrase (fun _ => "INNER JOIN ordered_subjects ")
          (.within 0) (.within 0)
          [.set "ordered_subjects"] [] :=
        isPhrase_set (by decide)
      have hOn : IsPhrase (fun _ =>
          "ON t.subject = ordered_subjects.found ")
          (.within 0) (.within 0) [] [] :=
        isPhrase_words (by decide)
      have hOrder : IsPhrase (fun _ =>
          "ORDER BY ordered_subjects.ordering ")
          (.within 0) (.within 0) [] [] :=
        isPhrase_words (by decide)
      refine ⟨_, _, _, isPhrase_rankedSets c k
        |>.plain (by decide) (by decide)
        |>.next (by decide) isPhrase_joinedRows
        |>.before (fun _ => endsApart_joinedRows _ _) hJoin
        |>.next (by decide) hOn
        |>.next (by decide) hOrder
        |>.next (by decide) (isPhrase_order k.direction).2
        |>.plain (r := .within 0) (by decide) (by decide),
        ?_, ?_, rfl⟩
      · simp
      · simp [Template.names, List.replicate_subset]

/- So does the text that asks whether there are any. -/
theorem namesTable_exist (t : Template) :
    NamesTable (fun name => exist (quoteIdentifier name) t)
      t.names := by
  cases t with
  | everything | about =>
      exact namesTable_between 1 (by decide) (by decide)
        (by decide) (by decide)
  | aboutAmong c =>
      have hFrom : IsPhrase (fun _ =>
          "SELECT 1 FROM candidates WHERE candidates.found = ?)")
          (.within 1) (.within 0)
          [.set "candidates"] [] :=
        isPhrase_set (by decide)
      refine ⟨_, _, _, isPhrase_candidates c
        |>.plain (by decide) (by decide)
        |>.next (by decide) hFrom, ?_, ?_, rfl⟩
      · simp
      · simp [Template.names, List.replicate_subset]
  | among c =>
      have hFrom : IsPhrase (fun _ => "SELECT 1 FROM candidates)")
          (.within 1) (.within 0)
          [.set "candidates"] [] :=
        isPhrase_set (by decide)
      refine ⟨_, _, _, isPhrase_candidates c
        |>.plain (by decide) (by decide)
        |>.next (by decide) hFrom, ?_, ?_, rfl⟩
      · simp
      · simp [Template.names, List.replicate_subset]
  | ranked c k =>
      have hFrom : IsPhrase (fun _ =>
          " SELECT EXISTS (SELECT 1 FROM ordered_subjects)")
          (.ahead 0) (.within 0)
          [.set "ordered_subjects"] [] :=
        isPhrase_set (by decide)
      refine ⟨_, _, _, isPhrase_rankedSets c k
        |>.andThen (fun _ => by decide) hFrom, ?_, ?_, rfl⟩
      · simp
      · simp [Template.names, List.replicate_subset]

end Sql

end Factbase
