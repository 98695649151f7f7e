import Factbase.Proofs.Query.Texts

/-
  Queries are told apart by their statements.

  Read from the left, the text of a statement gives back the
  parts that it is made of, one after another: what stands at a
  place either differs between two parts or shows that a part
  has ended.  So the text determines the form of a query.  The
  form says which arguments there are, so these give back the
  literals.  No two queries have one statement.

  Key definitions include:
    * `ReadsOff`
    * `Sql.Ended`

  Main declarations:
    * `Sql.readsOff_combined`
    * `Sql.rows_inj`
    * `Query.Form.template_inj`
    * `Query.eq_of_form_eq`
    * `Query.compile_eq_iff`
-/

namespace Factbase

------------------------------------------------------------
-- Parts of Lists
------------------------------------------------------------

section Parts

variable {α β : Type}
variable {part : α → List β}
variable {Next : List β → Prop}
variable {rest rest' : List β}

/-
  Lists that start with a part and go on in a certain way are
  the same only if the parts are and what follows is.
-/
def ReadsOff
    (part : α → List β)
    (Next : List β → Prop) : Prop :=
  ∀ x y rest rest', Next rest → Next rest' →
    part x ++ rest = part y ++ rest' → x = y ∧ rest = rest'

/- The same for parts that may be followed by anything. -/
theorem ReadsOff.inj
    (hPart : ReadsOff part fun _ => True)
    {x y : α}
    (hSame : part x ++ rest = part y ++ rest') :
    x = y ∧ rest = rest' :=
  hPart x y rest rest' trivial trivial hSame

/- Parts that differ in what they start with are read off. -/
theorem readsOff_of_starts
    (hStarts : ∀ x y rest rest',
      part x ++ rest = part y ++ rest' → x = y) :
    ReadsOff part fun _ => True := by
  intro x y rest rest' _ _ hSame
  rcases hStarts x y rest rest' hSame with rfl
  exact ⟨rfl, List.append_cancel_left hSame⟩

/- Parts in a row, if there are as many of them. -/
theorem ReadsOff.flatMap_inj
    (hPart : ReadsOff part fun _ => True)
    {xs ys : List α}
    (hLength : xs.length = ys.length)
    (hSame :
      xs.flatMap part ++ rest = ys.flatMap part ++ rest') :
    xs = ys ∧ rest = rest' := by
  induction xs generalizing ys with
  | nil =>
      rw [List.eq_nil_of_length_eq_zero hLength.symm] at hSame ⊢
      exact ⟨rfl, hSame⟩
  | cons x xs ih =>
      cases ys with
      | nil => cases hLength
      | cons y ys =>
          simp only [List.flatMap_cons, List.append_assoc]
            at hSame
          rcases hPart.inj hSame with ⟨rfl, hTail⟩
          rcases ih (Nat.succ.inj hLength) hTail with
            ⟨rfl, hRest⟩
          exact ⟨rfl, hRest⟩

end Parts

------------------------------------------------------------
-- Sets of Subjects
------------------------------------------------------------

namespace Sql

variable {table : String}

/- What follows a condition does not extend it. -/
def Ended (rest : List Char) : Prop :=
  ∀ more, rest ≠ ' ' :: 'A' :: more

/-
  One condition starts the others, which go on with an `AND`.
  The others differ in what they compare.
-/
theorem readsOff_condition
    (hTable : table = "" ∨ table = "t.") :
    ReadsOff (fun t => (condition table t).toList) Ended := by
  intro t u rest rest' hEnded hEnded' hSame
  rcases hTable with rfl | rfl <;>
    rcases t with _ | _ | _ | (_ | _) <;>
    rcases u with _ | _ | _ | (_ | _) <;>
    simp [condition, comparison] at hSame ⊢
  all_goals first
    | exact hSame
    | exact hEnded _ hSame
    | exact hEnded' _ hSame.symm

theorem readsOff_operator :
    ReadsOff (fun op => (operator op).toList)
      fun _ => True := by
  apply readsOff_of_starts
  intro op op' rest rest' hSame
  cases op <;> cases op' <;> simp [operator] at hSame ⊢

/- Sets of subjects are told apart where a set ends. -/
theorem readsOff_distinct :
    ReadsOff (fun t => (distinct table t).toList) Ended := by
  intro t u rest rest' hEnded hEnded' hSame
  unfold distinct at hSame
  simp only [String.toList_append, List.append_assoc,
    List.append_cancel_left_eq] at hSame
  exact readsOff_condition (.inl rfl) t u rest rest' hEnded
    hEnded' hSame

/- After a set comes an operator or the end. -/
theorem ended_combined
    (sets : List (SetOperator × Test))
    (rest : List Char) :
    Ended ((combined table sets).toList ++
      (" )".toList ++ rest)) := by
  intro more hSame
  rcases sets with _ | ⟨⟨_ | _, _⟩, _⟩ <;>
    simp [combined, operator] at hSame

/- The induction is on the sets still to be combined. -/
theorem readsOff_combined :
    ReadsOff (fun sets => (combined table sets ++ " )").toList)
      fun _ => True := by
  intro xs ys rest rest' _ _ hSame
  simp only [String.toList_append, List.append_assoc] at hSame
  induction xs generalizing ys with
  | nil =>
      rcases ys with _ | ⟨⟨_ | _, _⟩, _⟩ <;>
        simp [combined, operator] at hSame ⊢
      exact hSame
  | cons x xs ih =>
      rcases x with ⟨op, t⟩
      rcases ys with _ | ⟨⟨op', u⟩, ys⟩
      · cases op <;> simp [combined, operator] at hSame
      · simp only [combined, String.toList_append,
          List.append_assoc] at hSame
        rcases readsOff_operator.inj hSame with ⟨rfl, hSet⟩
        rcases readsOff_distinct t u _ _ (ended_combined xs rest)
          (ended_combined ys rest') hSet with ⟨rfl, hTail⟩
        rcases ih ys hTail with ⟨rfl, hRest⟩
        exact ⟨rfl, hRest⟩

/- So are the candidates, since a parenthesis closes them. -/
theorem readsOff_candidates :
    ReadsOff (fun c => (candidates table c).toList)
      fun _ => True := by
  rintro ⟨t, xs⟩ ⟨u, ys⟩ rest rest' _ _ hSame
  unfold candidates at hSame
  simp only [String.toList_append, List.append_assoc,
    List.append_cancel_left_eq] at hSame
  rcases readsOff_distinct t u _ _ (ended_combined xs rest)
    (ended_combined ys rest') hSame with ⟨rfl, hTail⟩
  have hSets : (combined table xs ++ " )").toList ++ rest =
      (combined table ys ++ " )").toList ++ rest' := by
    simpa only [String.toList_append, List.append_assoc]
      using hTail
  rcases readsOff_combined.inj hSets with ⟨rfl, hRest⟩
  exact ⟨rfl, hRest⟩

------------------------------------------------------------
-- Rankings
------------------------------------------------------------

theorem readsOff_aggregate :
    ReadsOff (fun d => (aggregate d).toList) fun _ => True := by
  apply readsOff_of_starts
  intro d d' rest rest' hSame
  cases d <;> cases d' <;> simp [aggregate] at hSame ⊢

/- The end of a ranking shows whether there is a limit. -/
theorem readsOff_limit :
    ReadsOff
      (fun limited : Bool =>
        ((if limited then " LIMIT ?" else "") ++ " )").toList)
      fun _ => True := by
  apply readsOff_of_starts
  intro limited limited' rest rest' hSame
  cases limited <;> cases limited' <;> simp at hSame ⊢

/- Rankings are told apart by function, test and limit. -/
theorem readsOff_ranking :
    ReadsOff (fun k => (ranking table k).toList)
      fun _ => True := by
  rintro ⟨t, d, limited⟩ ⟨u, d', limited'⟩ rest rest' _ _ hSame
  unfold ranking at hSame
  simp only [String.toList_append, List.append_assoc,
    List.append_cancel_left_eq] at hSame
  rcases readsOff_aggregate.inj hSame with ⟨rfl, hTest⟩
  simp only [List.append_cancel_left_eq] at hTest
  have hEnded : ∀ more : List Char,
      Ended (" GROUP BY t.subject ORDER BY ordering ".toList ++
        more) := by
    intro more next
    simp
  rcases readsOff_condition (.inr rfl) t u _ _ (hEnded _)
    (hEnded _) hTest with ⟨rfl, hOrder⟩
  simp only [List.append_cancel_left_eq] at hOrder
  have hEnd : ((if limited then " LIMIT ?" else "") ++
        " )").toList ++ rest =
      ((if limited' then " LIMIT ?" else "") ++
        " )").toList ++ rest' := by
    simpa only [String.toList_append, List.append_assoc]
      using hOrder
  rcases readsOff_limit.inj hEnd with ⟨rfl, hRest⟩
  exact ⟨rfl, hRest⟩

------------------------------------------------------------
-- Statements
------------------------------------------------------------

/- Only texts with sets of their own start by naming them. -/
theorem head_rows
    (table : String)
    (t : Template) :
    (rows table t).toList.head? =
      some (if t.names = [] then 'S' else 'W') := by
  unfold rows
  cases t with
  | everything | about =>
      simp only [String.toList_append, List.append_assoc]
      rfl
  | aboutAmong c | among c | ranked c k =>
      unfold candidates
      simp only [String.toList_append, List.append_assoc]
      rfl

theorem rows_everything_ne_about :
    rows table .everything ≠ rows table .about := by
  intro hSame
  unfold rows at hSame
  simp only [← String.toList_inj, String.toList_append,
    List.append_assoc, List.append_cancel_left_eq] at hSame
  simp at hSame

/- After the candidates comes a condition or an order. -/
theorem rows_aboutAmong_ne_among (c d : Compound) :
    rows table (.aboutAmong c) ≠ rows table (.among d) := by
  intro hSame
  unfold rows at hSame
  simp only [← String.toList_inj, String.toList_append,
    List.append_assoc] at hSame
  rcases readsOff_candidates.inj hSame with ⟨_, hRest⟩
  simp only [List.append_cancel_left_eq] at hRest
  simp at hRest

/- After the candidates comes a ranking or the rows. -/
theorem rows_ranked_ne
    {t : Template}
    (hSets : t.names = ["candidates"])
    (c : Compound)
    (k : Ranking) :
    rows table (.ranked c k) ≠ rows table t := by
  intro hSame
  cases t with
  | aboutAmong d | among d =>
      unfold rows at hSame
      simp only [← String.toList_inj, String.toList_append,
        List.append_assoc] at hSame
      rcases readsOff_candidates.inj hSame with ⟨_, hRest⟩
      have hFirst : ',' = ' ' := (List.cons.inj hRest).1
      simp at hFirst
  | _ => simp [Template.names] at hSets

/- The text over a collection determines the template. -/
theorem rows_inj
    {t u : Template}
    (hSame : rows table t = rows table u) : t = u := by
  have hNames : t.names = [] ↔ u.names = [] := by
    have hHead := head_rows table t
    rw [hSame, head_rows] at hHead
    by_cases hNone : t.names = [] <;>
      by_cases hNone' : u.names = [] <;>
      simp [hNone, hNone'] at hHead ⊢
  cases t with
  | everything =>
      cases u with
      | everything => rfl
      | about => exact absurd hSame rows_everything_ne_about
      | _ => simp [Template.names] at hNames
  | about =>
      cases u with
      | everything =>
          exact absurd hSame.symm rows_everything_ne_about
      | about => rfl
      | _ => simp [Template.names] at hNames
  | aboutAmong c =>
      cases u with
      | aboutAmong d =>
          unfold rows at hSame
          simp only [← String.toList_inj, String.toList_append,
            List.append_assoc] at hSame
          rw [(readsOff_candidates.inj hSame).1]
      | among d =>
          exact absurd hSame (rows_aboutAmong_ne_among c d)
      | ranked d k =>
          exact absurd hSame.symm (rows_ranked_ne rfl d k)
      | _ => simp [Template.names] at hNames
  | among c =>
      cases u with
      | aboutAmong d =>
          exact absurd hSame.symm (rows_aboutAmong_ne_among d c)
      | among d =>
          unfold rows at hSame
          simp only [← String.toList_inj, String.toList_append,
            List.append_assoc] at hSame
          rw [(readsOff_candidates.inj hSame).1]
      | ranked d k =>
          exact absurd hSame.symm (rows_ranked_ne rfl d k)
      | _ => simp [Template.names] at hNames
  | ranked c k =>
      cases u with
      | aboutAmong d => exact absurd hSame (rows_ranked_ne rfl c k)
      | among d => exact absurd hSame (rows_ranked_ne rfl c k)
      | ranked d l =>
          unfold rows at hSame
          simp only [← String.toList_inj, String.toList_append,
            List.append_assoc] at hSame
          rcases readsOff_candidates.inj hSame with ⟨rfl, hRest⟩
          simp only [List.append_cancel_left_eq] at hRest
          rw [(readsOff_ranking.inj hRest).1]
      | _ => simp [Template.names] at hNames

end Sql

------------------------------------------------------------
-- Forms
------------------------------------------------------------

namespace Query

/- The form of the queries that have a template. -/
def Form.ofTemplate : Template → Form
  | .everything => .all
  | .about => .about 0
  | .aboutAmong c => .about (c.rest.length + 1)
  | .among c =>
      .matching (c.first = .begins)
        (c.rest.count (.intersect, .equals))
        (c.rest.count (.intersect, .has))
        (c.rest.count (.except, .has))
  | .ranked c k =>
      match k.test with
      | .beyond d =>
          .range d k.limited
            (c.rest.count (.intersect, .equals))
            (c.rest.count (.except, .has))
      | _ =>
          .order k.direction
            (c.rest.count (.intersect, .equals))
            (c.rest.count (.except, .has))

/- The sets of a template are told apart by what they test. -/
theorem Form.ofTemplate_template (f : Form) :
    Form.ofTemplate f.template = f := by
  cases f with
  | all => rfl
  | about wheres =>
      cases wheres with
      | zero => rfl
      | succ n => simp [template, ofTemplate, setOf]
  | matching byStart wheres has without =>
      cases byStart <;>
        simp [template, ofTemplate, setOf, List.count_replicate]
  | range direction limited wheres without =>
      simp [template, ofTemplate, setOf, List.count_replicate]
  | order direction wheres without =>
      simp [template, ofTemplate, setOf, List.count_replicate]

/- Forms that give one template are the same. -/
theorem Form.template_inj
    {f g : Form}
    (hSame : f.template = g.template) : f = g := by
  rw [← f.ofTemplate_template, hSame, g.ofTemplate_template]

------------------------------------------------------------
-- Arguments
------------------------------------------------------------

theorem readsOff_clause :
    ReadsOff (fun c : Clause => c.test.2) fun _ => True := by
  rintro ⟨p, v⟩ ⟨p', v'⟩ rest rest' _ _ hSame
  simpa [Clause.test, and_assoc] using hSame

theorem readsOff_hasTest :
    ReadsOff (fun p => (hasTest p).2) fun _ => True := by
  intro p p' rest rest' _ _ hSame
  simpa [hasTest] using hSame

/- The number of characters of a start is no text. -/
theorem readsOff_primary :
    ReadsOff (fun p : Primary => p.test.2) fun _ => True := by
  rintro (⟨p, v⟩ | ⟨p, start⟩) (⟨p', v'⟩ | ⟨p', start'⟩) rest
    rest' _ _ hSame
  · simpa [Primary.test, Clause.test, and_assoc] using hSame
  · simp [Primary.test, Clause.test] at hSame
  · simp [Primary.test, Clause.test] at hSame
  · simp [Primary.test] at hSame ⊢
    rcases hSame with ⟨hPredicate, _, hStart, hRest⟩
    exact ⟨⟨hPredicate, hStart⟩, hRest⟩

/- The subject comes after the conditions that it has to meet. -/
theorem args_about (q : AboutQuery) :
    (Query.about q).statement.args =
      q.wheres.flatMap (fun c => c.test.2) ++
        [.text q.subject] := by
  rcases q with ⟨subject, _ | ⟨c, cs⟩⟩
  · rfl
  · simp [statement, AboutQuery.statement, Factbase.candidates,
      List.flatMap_map]

/- The arguments come in the order of the clauses. -/
theorem args_matching (q : MatchQuery) :
    (Query.matching q).statement.args =
      q.primary.test.2 ++
        (q.wheres.flatMap (fun c => c.test.2) ++
          (q.has.flatMap (fun p => (hasTest p).2) ++
            q.without.flatMap fun p => (hasTest p).2)) := by
  simp [statement, MatchQuery.statement, Factbase.candidates,
    List.flatMap_map]

/- The arguments of the range come before and after the others. -/
theorem args_scan
    (predicate : String)
    (threshold : Option String)
    (direction : Direction)
    (limit : Option Nat)
    (wheres : List Clause)
    (without : List String) :
    (scan predicate threshold direction limit wheres
        without).args =
      (rangeTest predicate threshold direction).2 ++
        (wheres.flatMap (fun c => c.test.2) ++
          (without.flatMap (fun p => (hasTest p).2) ++
            ((rangeTest predicate threshold direction).2 ++
              (limit.map Arg.integer).toList))) := by
  simp [scan, Factbase.candidates, List.flatMap_map]

/- A scan is given back by its arguments and its form. -/
theorem scan_args_inj
    {predicate predicate' : String}
    {threshold threshold' : Option String}
    {direction : Direction}
    {limit limit' : Option Nat}
    {wheres wheres' : List Clause}
    {without without' : List String}
    (hThreshold : threshold.isSome = threshold'.isSome)
    (hWheres : wheres.length = wheres'.length)
    (hWithout : without.length = without'.length)
    (hSame :
      (scan predicate threshold direction limit wheres
          without).args =
        (scan predicate' threshold' direction limit' wheres'
          without').args) :
    predicate = predicate' ∧ threshold = threshold' ∧
      limit = limit' ∧ wheres = wheres' ∧
        without = without' := by
  rw [args_scan, args_scan] at hSame
  have hTest : ∀ rest rest' : List Arg,
      (rangeTest predicate threshold direction).2 ++ rest =
        (rangeTest predicate' threshold' direction).2 ++ rest' →
      predicate = predicate' ∧ threshold = threshold' ∧
        rest = rest' := by
    intro rest rest' hSame
    cases threshold with
    | none =>
        cases threshold' with
        | none => simpa [rangeTest, hasTest] using hSame
        | some w => cases hThreshold
    | some v =>
        cases threshold' with
        | none => cases hThreshold
        | some w => simpa [rangeTest] using hSame
  rcases hTest _ _ hSame with ⟨rfl, rfl, hConditions⟩
  rcases readsOff_clause.flatMap_inj hWheres hConditions with
    ⟨rfl, hExcluded⟩
  rcases readsOff_hasTest.flatMap_inj hWithout hExcluded with
    ⟨rfl, hRanking⟩
  have hLimits :=
    congrArg List.head? (List.append_cancel_left hRanking)
  rw [Option.head?_toList, Option.head?_toList] at hLimits
  have hLimit : limit = limit' :=
    Option.map_injective (fun _ _ => Arg.integer.inj) hLimits
  exact ⟨rfl, rfl, hLimit, rfl, rfl⟩

/- The arguments of one form give back the literals. -/
theorem eq_of_form_eq
    {q r : Query}
    (hForm : q.form = r.form)
    (hArgs : q.statement.args = r.statement.args) : q = r := by
  cases q with
  | all =>
      cases r with
      | all => rfl
      | _ => cases hForm
  | about q =>
      cases r with
      | about r =>
          rcases q with ⟨subject, wheres⟩
          rcases r with ⟨subject', wheres'⟩
          simp only [form, Form.about.injEq] at hForm
          rw [args_about, args_about] at hArgs
          rcases readsOff_clause.flatMap_inj hForm hArgs with
            ⟨rfl, hSubject⟩
          cases hSubject
          rfl
      | _ => cases hForm
  | matching q =>
      cases r with
      | matching r =>
          rcases q with ⟨primary, wheres, has, without⟩
          rcases r with ⟨primary', wheres', has', without'⟩
          simp only [form, Form.matching.injEq] at hForm
          rcases hForm with ⟨_, hWheres, hHas, hWithout⟩
          rw [args_matching, args_matching] at hArgs
          rcases readsOff_primary.inj hArgs with ⟨rfl, hRequired⟩
          rcases readsOff_clause.flatMap_inj hWheres hRequired
            with ⟨rfl, hHaving⟩
          rcases readsOff_hasTest.flatMap_inj hHas hHaving with
            ⟨rfl, hExcluded⟩
          rw [← List.append_nil (without.flatMap _),
            ← List.append_nil (without'.flatMap _)] at hExcluded
          rw [(readsOff_hasTest.flatMap_inj hWithout
            hExcluded).1]
      | _ => cases hForm
  | range q =>
      cases r with
      | range r =>
          rcases q with ⟨predicate, threshold, d, limit, _, _⟩
          rcases r with ⟨predicate', threshold', d', limit', _, _⟩
          simp only [form, Form.range.injEq] at hForm
          rcases hForm with ⟨rfl, _, hWheres, hWithout⟩
          have hBoth :
              (some threshold).isSome = (some threshold').isSome :=
            rfl
          rcases scan_args_inj hBoth hWheres hWithout hArgs with
            ⟨rfl, hThreshold, rfl, rfl, rfl⟩
          cases hThreshold
          rfl
      | _ => cases hForm
  | order q =>
      cases r with
      | order r =>
          rcases q with ⟨predicate, d, _, _⟩
          rcases r with ⟨predicate', d', _, _⟩
          simp only [form, Form.order.injEq] at hForm
          rcases hForm with ⟨rfl, hWheres, hWithout⟩
          rcases scan_args_inj rfl hWheres hWithout hArgs with
            ⟨rfl, _, _, rfl, rfl⟩
          rfl
      | _ => cases hForm

/-
  The statements for the rows of two queries are equal, text and
  arguments, exactly if the queries are.
-/
theorem compile_eq_iff
    (q r : Query)
    (collection : String) :
    q.compile collection = r.compile collection ↔ q = r := by
  constructor
  · intro hSame
    rw [compile, compile, Statement.compile, Statement.compile,
      CompiledQuery.mk.injEq] at hSame
    rcases hSame with ⟨hText, hArgs⟩
    have hTemplate := Sql.rows_inj hText
    rw [template_statement, template_statement] at hTemplate
    exact eq_of_form_eq (Form.template_inj hTemplate) hArgs
  · rintro rfl
    rfl

end Query

end Factbase
