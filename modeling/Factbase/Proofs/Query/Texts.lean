import Factbase.Proofs.Query.Candidates

/-
  The SQL texts that queries are compiled to.

  Every literal of a query is an argument.  A text has one gap
  for each argument, whatever stands in the quoted name of the
  collection, and it is the same for all queries of one form:
  subjects, predicates, values, starts and limits leave no trace
  in it.

  Key definitions include:
    * `Sql.gapsFrom`
    * `Sql.HasGaps`
    * `Query.Form`

  Main declarations:
    * `Sql.HasGaps.append`
    * `Sql.hasGaps_rows`
    * `Sql.hasGaps_exist`
    * `Query.template_statement`
    * `Query.length_args`
    * `Query.compile_by_form`
-/

namespace Factbase

namespace Sql

------------------------------------------------------------
-- Gaps
------------------------------------------------------------

/-
  How many gaps for arguments a text has outside of quoted
  identifiers.  It may start inside of one.  Two quotes in a row
  leave an identifier and enter it again.
-/
def gapsFrom (quoted : Bool) : List Char → Nat
  | [] => 0
  | c :: cs =>
      if c = '"' then gapsFrom (!quoted) cs
      else if c = '?' ∧ quoted = false then gapsFrom quoted cs + 1
      else gapsFrom quoted cs

/- How many gaps for arguments a text has. -/
def gaps (text : String) : Nat :=
  gapsFrom false text.toList

/- A text ends outside of identifiers and has some gaps. -/
def HasGaps (text : String) (n : Nat) : Prop :=
  ∀ rest, gapsFrom false (text.toList ++ rest) =
    n + gapsFrom false rest

/- With nothing after it, a text has its own gaps. -/
theorem HasGaps.gaps_eq
    {text : String}
    {n : Nat}
    (hGaps : HasGaps text n) : gaps text = n := by
  have hAlone := hGaps []
  rwa [List.append_nil] at hAlone

/- Gaps add up, since the first text ends outside of quotes. -/
theorem HasGaps.append
    {first second : String}
    {m n : Nat}
    (hFirst : HasGaps first m)
    (hSecond : HasGaps second n) :
    HasGaps (first ++ second) (m + n) := by
  intro rest
  rw [String.toList_append, List.append_assoc, hFirst, hSecond,
    Nat.add_assoc]

theorem HasGaps.of_eq
    {text : String}
    {m n : Nat}
    (hGaps : HasGaps text m)
    (hCount : m = n) : HasGaps text n :=
  hCount ▸ hGaps

/- Without quotes, every question mark is a gap. -/
theorem gapsFrom_append_of_unquoted
    {cs : List Char}
    (hUnquoted : '"' ∉ cs)
    (rest : List Char) :
    gapsFrom false (cs ++ rest) =
      cs.count '?' + gapsFrom false rest := by
  induction cs with
  | nil => simp
  | cons c cs ih =>
      rw [List.mem_cons, not_or] at hUnquoted
      rw [List.cons_append, gapsFrom,
        if_neg (Ne.symm hUnquoted.1), ih hUnquoted.2,
        List.count_cons]
      by_cases hGap : c = '?'
      · simp [hGap]
        omega
      · simp [hGap]

/- Without quotes, the gaps are the question marks. -/
theorem hasGaps_words
    {text : String}
    {n : Nat}
    (hUnquoted : '"' ∉ text.toList)
    (hCount : text.toList.count '?' = n) :
    HasGaps text n := by
  intro rest
  rw [gapsFrom_append_of_unquoted hUnquoted, hCount]

/- Without these either, there are none. -/
theorem hasGaps_plain
    {text : String}
    (hPlain : '"' ∉ text.toList ∧ '?' ∉ text.toList) :
    HasGaps text 0 :=
  hasGaps_words hPlain.1 (List.count_eq_zero.mpr hPlain.2)

/- Words without quotes and gaps may follow. -/
theorem HasGaps.plain
    {text more : String}
    {n : Nat}
    (hGaps : HasGaps text n)
    (hPlain : '"' ∉ more.toList ∧ '?' ∉ more.toList) :
    HasGaps (text ++ more) n :=
  hGaps.append (hasGaps_plain hPlain)

/- The name in an identifier has no gaps, nor does it end it. -/
theorem gapsFrom_escaped
    (name rest : List Char) :
    gapsFrom true (name.flatMap escapeQuote ++ rest) =
      gapsFrom true rest := by
  induction name with
  | nil => rfl
  | cons c name ih =>
      rw [List.flatMap_cons, List.append_assoc]
      by_cases hQuote : c = '"'
      · simp [escapeQuote, hQuote, gapsFrom, ih]
      · simp [escapeQuote, hQuote, gapsFrom, ih]

/- No question mark in a quoted name is a gap. -/
theorem hasGaps_quoteIdentifier (name : String) :
    HasGaps (quoteIdentifier name) 0 := by
  intro rest
  rw [quoteIdentifier, String.toList_ofList]
  simp [gapsFrom, gapsFrom_escaped]

------------------------------------------------------------
-- Parts of Statements
------------------------------------------------------------

/- A condition has a gap for each argument of its test. -/
theorem hasGaps_condition (t : Test) :
    HasGaps (condition "" t) t.arity ∧
      HasGaps (condition "t." t) t.arity := by
  rcases t with _ | _ | _ | (_ | _) <;>
    exact ⟨hasGaps_words (by decide) (by decide),
      hasGaps_words (by decide) (by decide)⟩

theorem hasGaps_operator (op : SetOperator) :
    HasGaps (operator op) 0 := by
  cases op <;> exact hasGaps_plain (by decide)

theorem hasGaps_aggregate (d : Direction) :
    HasGaps (aggregate d) 0 := by
  cases d <;> exact hasGaps_plain (by decide)

theorem hasGaps_order (d : Direction) : HasGaps (order d) 0 := by
  cases d <;> exact hasGaps_plain (by decide)

/- Only a limit has a gap of its own. -/
theorem hasGaps_limit (limited : Bool) :
    HasGaps (if limited then " LIMIT ?" else "")
      (if limited then 1 else 0) := by
  cases limited <;>
    exact hasGaps_words (by decide) (by decide)

section Parts

variable {table : String}

variable (hTable : HasGaps table 0)
include hTable

/- A set of subjects has the gaps of its test. -/
theorem hasGaps_distinct (t : Test) :
    HasGaps (distinct table t) t.arity := by
  unfold distinct
  refine (hasGaps_plain (by decide)
    |>.append hTable
    |>.plain (by decide)
    |>.append (hasGaps_condition t).1
    |>.of_eq ?_)
  omega

/- The induction is on the sets still to be combined. -/
theorem hasGaps_combined (rest : List (SetOperator × Test)) :
    HasGaps (combined table rest) (Compound.restArity rest) := by
  induction rest with
  | nil =>
      unfold combined
      exact hasGaps_plain (by decide)
  | cons term rest ih =>
      rcases term with ⟨op, t⟩
      unfold combined Compound.restArity
      refine (hasGaps_operator op
        |>.append (hasGaps_distinct hTable t)
        |>.append ih
        |>.of_eq ?_)
      omega

/- The candidates have the gaps of all their tests. -/
theorem hasGaps_candidates (c : Compound) :
    HasGaps (candidates table c) c.arity := by
  unfold candidates Compound.arity
  refine (hasGaps_plain (by decide)
    |>.append (hasGaps_distinct hTable c.first)
    |>.append (hasGaps_combined hTable c.rest)
    |>.plain (by decide)
    |>.of_eq ?_)
  omega

/- A ranking has those of its test and of its limit. -/
theorem hasGaps_ranking (k : Ranking) :
    HasGaps (ranking table k) k.arity := by
  unfold ranking Ranking.arity
  refine (hasGaps_plain (by decide)
    |>.plain (by decide)
    |>.append (hasGaps_aggregate k.direction)
    |>.plain (by decide)
    |>.append hTable
    |>.plain (by decide)
    |>.plain (by decide)
    |>.plain (by decide)
    |>.append (hasGaps_condition k.test).2
    |>.plain (by decide)
    |>.append (hasGaps_order k.direction)
    |>.plain (by decide)
    |>.append (hasGaps_limit k.limited)
    |>.plain (by decide)
    |>.of_eq ?_)
  omega

/- The rows that are joined have none. -/
theorem hasGaps_joinedRows : HasGaps (joinedRows table) 0 := by
  unfold joinedRows
  exact hasGaps_plain (by decide)
    |>.append hTable
    |>.plain (by decide)

------------------------------------------------------------
-- Statements
------------------------------------------------------------

/- The text that yields rows has a gap for each argument. -/
theorem hasGaps_rows (t : Template) :
    HasGaps (rows table t) t.arity := by
  cases t with
  | everything =>
      unfold rows
      exact hasGaps_plain (by decide)
        |>.append hTable
        |>.plain (by decide)
  | about =>
      unfold rows
      exact hasGaps_plain (by decide)
        |>.append hTable
        |>.append (hasGaps_words (n := 1) (by decide) (by decide))
  | aboutAmong c =>
      unfold rows Template.arity
      exact hasGaps_candidates hTable c
        |>.plain (by decide)
        |>.append (hasGaps_joinedRows hTable)
        |>.plain (by decide)
        |>.append (hasGaps_words (by decide) (by decide))
  | among c =>
      unfold rows Template.arity
      exact hasGaps_candidates hTable c
        |>.plain (by decide)
        |>.append (hasGaps_joinedRows hTable)
        |>.plain (by decide)
        |>.plain (by decide)
  | ranked c k =>
      unfold rows Template.arity
      exact hasGaps_candidates hTable c
        |>.plain (by decide)
        |>.append (hasGaps_ranking hTable k)
        |>.plain (by decide)
        |>.append (hasGaps_joinedRows hTable)
        |>.plain (by decide)
        |>.plain (by decide)
        |>.plain (by decide)
        |>.append (hasGaps_order k.direction)
        |>.plain (by decide)

/- So has the text that tells whether there are any. -/
theorem hasGaps_exist (t : Template) :
    HasGaps (exist table t) t.arity := by
  cases t with
  | everything =>
      unfold exist
      exact hasGaps_plain (by decide)
        |>.append hTable
        |>.plain (by decide)
  | about =>
      unfold exist
      exact hasGaps_plain (by decide)
        |>.append hTable
        |>.append (hasGaps_words (n := 1) (by decide) (by decide))
  | aboutAmong c =>
      unfold exist Template.arity
      exact hasGaps_candidates hTable c
        |>.plain (by decide)
        |>.append (hasGaps_words (by decide) (by decide))
  | among c =>
      unfold exist Template.arity
      exact hasGaps_candidates hTable c
        |>.plain (by decide)
        |>.plain (by decide)
  | ranked c k =>
      unfold exist Template.arity
      exact hasGaps_candidates hTable c
        |>.plain (by decide)
        |>.append (hasGaps_ranking hTable k)
        |>.plain (by decide)

end Parts

end Sql

------------------------------------------------------------
-- Forms of Queries
------------------------------------------------------------

namespace Query

/-
  The form of a query: its kind, and how many conditions it has
  of each sort, without any subject, predicate, value, start or
  count.
-/
inductive Form where
  | all
  | about (wheres : Nat)
  | matching (byStart : Bool) (wheres has without : Nat)
  | range
      (direction : Direction)
      (limited : Bool)
      (wheres without : Nat)
  | order (direction : Direction) (wheres without : Nat)
deriving DecidableEq, Repr

/- A primary condition asks for a start, not for a value. -/
def asksForStart : Primary → Bool
  | .equals _ => false
  | .begins _ _ => true

def form : Query → Form
  | .all => .all
  | .about q => .about q.wheres.length
  | .matching q =>
      .matching (asksForStart q.primary) q.wheres.length
        q.has.length q.without.length
  | .range q =>
      .range q.direction q.limit.isSome q.wheres.length
        q.without.length
  | .order q =>
      .order q.direction q.wheres.length q.without.length

/- A set of subjects that meet some numbers of conditions. -/
def setOf
    (first : Test)
    (wheres has without : Nat) : Compound :=
  ⟨first, List.replicate wheres (.intersect, .equals)
    ++ List.replicate has (.intersect, .has)
    ++ List.replicate without (.except, .has)⟩

/- The template of the queries of a form. -/
def Form.template : Form → Template
  | .all => .everything
  | .about 0 => .about
  | .about (n + 1) => .aboutAmong (setOf .equals n 0 0)
  | .matching byStart wheres has without =>
      .among (setOf (if byStart then .begins else .equals)
        wheres has without)
  | .range direction limited wheres without =>
      .ranked (setOf (.beyond direction) wheres 0 without)
        ⟨.beyond direction, direction, limited⟩
  | .order direction wheres without =>
      .ranked (setOf .has wheres 0 without)
        ⟨.has, direction, false⟩

/- Conditions leave their number in a set, and nothing else. -/
theorem candidates_eq_setOf
    (first : BoundTest)
    (wheres : List Clause)
    (has without : List String) :
    (candidates first (wheres.map Clause.test ++ has.map hasTest)
        (without.map hasTest)).1 =
      setOf first.1 wheres.length has.length without.length := by
  simp [candidates, setOf, Clause.test, hasTest,
    List.map_const', Function.comp_def]

/- The set of an ordered query, which has no `has` conditions. -/
theorem candidates_eq_setOf_of_scan
    (first : BoundTest)
    (wheres : List Clause)
    (without : List String) :
    (candidates first (wheres.map Clause.test)
        (without.map hasTest)).1 =
      setOf first.1 wheres.length 0 without.length := by
  have hSet := candidates_eq_setOf first wheres [] without
  rwa [List.map_nil, List.append_nil] at hSet

/- The statement of a query has the template of its form. -/
theorem template_statement (q : Query) :
    q.statement.template = q.form.template := by
  cases q with
  | all => rfl
  | about q =>
      rcases q with ⟨subject, _ | ⟨c, cs⟩⟩
      · rfl
      · exact congrArg Template.aboutAmong
          (candidates_eq_setOf_of_scan c.test cs [])
  | matching q =>
      rcases q with ⟨_ | _, wheres, has, without⟩ <;>
        exact congrArg Template.among
          (candidates_eq_setOf _ wheres has without)
  | range q =>
      exact congrArg
        (Template.ranked · ⟨.beyond q.direction, q.direction,
          q.limit.isSome⟩)
        (candidates_eq_setOf_of_scan _ q.wheres q.without)
  | order q =>
      exact congrArg
        (Template.ranked · ⟨.has, q.direction, false⟩)
        (candidates_eq_setOf_of_scan _ q.wheres q.without)

------------------------------------------------------------
-- Arguments
------------------------------------------------------------

/- A scan gives its threshold twice and its limit last. -/
theorem length_scan
    (predicate : String)
    (threshold : Option String)
    (direction : Direction)
    (limit : Option Nat)
    (wheres : List Clause)
    (without : List String) :
    (scan predicate threshold direction limit wheres
        without).args.length =
      (scan predicate threshold direction limit wheres
        without).template.arity := by
  have hTest := fits_rangeTest predicate threshold direction
  have hSet : (candidates
        (rangeTest predicate threshold direction)
        (wheres.map Clause.test)
        (without.map hasTest)).2.length =
      (candidates (rangeTest predicate threshold direction)
        (wheres.map Clause.test)
        (without.map hasTest)).1.arity :=
    length_candidates hTest (by simp [Clause.fits_test])
      (by simp [fits_hasTest])
  rw [BoundTest.Fits] at hTest
  simp only [scan, Template.arity, Ranking.arity,
    List.length_append, hSet, hTest, Nat.add_assoc]
  cases limit <;> rfl

/- A statement comes with as many arguments as it takes. -/
theorem length_args (q : Query) :
    q.statement.args.length = q.statement.template.arity := by
  cases q with
  | all => rfl
  | about q =>
      rcases q with ⟨subject, _ | ⟨c, cs⟩⟩
      · rfl
      · have hSet : (candidates c.test (cs.map Clause.test)
              []).2.length =
            (candidates c.test (cs.map Clause.test)
              []).1.arity :=
          length_candidates c.fits_test
            (by simp [Clause.fits_test]) (by simp)
        simp only [statement, AboutQuery.statement,
          Template.arity, List.length_append, hSet,
          List.length_singleton]
  | matching q =>
      exact length_candidates q.primary.fits_test
        (by simp [or_imp, forall_and, Clause.fits_test,
          fits_hasTest])
        (by simp [fits_hasTest])
  | range q =>
      exact length_scan q.predicate (some q.threshold)
        q.direction q.limit q.wheres q.without
  | order q =>
      exact length_scan q.predicate none q.direction none
        q.wheres q.without

/-
  A query asks for its rows and for their existence with the
  same arguments.  Each text has a gap for every argument, and
  queries of one form have one text.
-/
theorem compile_by_form (q : Query) (collection : String) :
    (q.compileExists collection).args =
        (q.compile collection).args ∧
      Sql.gaps (q.compile collection).sql =
        (q.compile collection).args.length ∧
      Sql.gaps (q.compileExists collection).sql =
        (q.compileExists collection).args.length ∧
      ∀ r : Query, r.form = q.form →
        (r.compile collection).sql = (q.compile collection).sql ∧
          (r.compileExists collection).sql =
            (q.compileExists collection).sql := by
  have hName := Sql.hasGaps_quoteIdentifier collection
  refine ⟨rfl, ?_, ?_, ?_⟩
  · exact (Sql.hasGaps_rows hName _).gaps_eq.trans
      q.length_args.symm
  · exact (Sql.hasGaps_exist hName _).gaps_eq.trans
      q.length_args.symm
  · intro r hForm
    have hTemplate :
        r.statement.template = q.statement.template := by
      rw [template_statement, template_statement, hForm]
    constructor
    · exact congrArg
        (Sql.rows (Sql.quoteIdentifier collection)) hTemplate
    · exact congrArg
        (Sql.exist (Sql.quoteIdentifier collection)) hTemplate

/-
  Two scans with other literals, over a collection whose name
  has a quote and a question mark.
-/
theorem compile_by_form_odd_name :
    let q := Query.range
      ⟨"age", "22", .ascending, some 3, [⟨"tag", "\"?\""⟩], ["x"]⟩
    let r := Query.range
      ⟨"?", "\"\"", .ascending, some 0, [⟨"p", "null"⟩], ["?"]⟩
    r.form = q.form ∧
      (r.compile "a\"?").sql = (q.compile "a\"?").sql ∧
      (r.compileExists "a\"?").sql =
        (q.compileExists "a\"?").sql :=
  ⟨rfl, (compile_by_form _ _).2.2.2 _ rfl⟩

end Query

end Factbase
