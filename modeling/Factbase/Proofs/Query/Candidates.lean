import Factbase.Proofs.Grouping.Subjects
import Factbase.Proofs.Query.Meaning
import Factbase.Proofs.Store.Rows
import Factbase.Query.Compile
import Mathlib.Algebra.Ring.Nat

/-
  The sets of subjects that statements start from.

  A set is combined from left to right, and each test takes its
  arguments from the front of those that are left.  As every
  test comes with as many arguments as it takes, none of them
  gets those of another one, and the set holds the subjects that
  pass all required tests and no excluded one.

  Main declarations:
    * `BoundTest.Passes`
    * `Compound.mem_narrow_iff`
    * `mem_candidates_iff`
    * `Row.join_eq_filter`
-/

------------------------------------------------------------
-- Tests
------------------------------------------------------------

namespace Factbase

namespace BoundTest

/- A test comes with as many arguments as it takes. -/
def Fits (t : BoundTest) : Prop :=
  t.2.length = t.1.arity

/- A subject has a row that passes a test. -/
def Passes
    (t : BoundTest)
    (rows : List Row)
    (subject : String) : Prop :=
  ∃ r ∈ rows, r.subject = subject ∧ t.1.holds t.2 r = true

end BoundTest

theorem Clause.fits_test (c : Clause) : c.test.Fits := rfl

theorem fits_hasTest (predicate : String) :
    (hasTest predicate).Fits := rfl

/- A condition that a query starts from has its arguments. -/
theorem Primary.fits_test (p : Primary) : p.test.Fits := by
  cases p <;> rfl

/- A range has an argument more if it has a threshold. -/
theorem fits_rangeTest
    (predicate : String)
    (threshold : Option String)
    (direction : Direction) :
    (rangeTest predicate threshold direction).Fits := by
  cases threshold <;> rfl

namespace Test

variable {t : Test}
variable {args : List Arg}
variable {rows : List Row}
variable {subject : String}

/- A test selects the subjects that have a row that passes. -/
theorem mem_subjects_iff :
    subject ∈ t.subjects args rows ↔
      BoundTest.Passes (t, args) rows subject := by
  simp only [Test.subjects, List.mem_eraseDups, List.mem_map,
    List.mem_filter, BoundTest.Passes]
  constructor
  · rintro ⟨r, ⟨hRow, hPass⟩, hSubject⟩
    exact ⟨r, hRow, hSubject, hPass⟩
  · rintro ⟨r, hRow, hSubject, hPass⟩
    exact ⟨r, ⟨hRow, hPass⟩, hSubject⟩

/- It selects each of them once. -/
theorem nodup_subjects : (t.subjects args rows).Nodup :=
  nodup_eraseDups _

end Test

------------------------------------------------------------
-- Combination
------------------------------------------------------------

/- What a set operator asks of a further test. -/
def SetOperator.Asks
    (op : SetOperator)
    (passes : Prop) : Prop :=
  match op with
  | .intersect => passes
  | .except => ¬passes

/-
  A set operator asks that a subject is or is not in the other
  set.
-/
theorem SetOperator.mem_apply_iff
    {op : SetOperator}
    {xs ys : List String}
    {subject : String} :
    subject ∈ op.apply xs ys ↔
      subject ∈ xs ∧ op.Asks (subject ∈ ys) := by
  cases op <;> simp [SetOperator.apply, SetOperator.Asks]

/- A further test of a set, with its arguments. -/
abbrev Term :=
  SetOperator × BoundTest

namespace Compound

variable {rows : List Row}

/-
  Combination with further tests, of which each gets its own
  arguments.  The induction is on the tests, for any subjects
  found so far.
-/
theorem mem_narrow_iff
    {terms : List Term}
    (hFits : ∀ term ∈ terms, term.2.Fits)
    {found : List String}
    {subject : String} :
    subject ∈ narrow rows found
        (terms.map fun term => (term.1, term.2.1))
        (terms.flatMap fun term => term.2.2) ↔
      subject ∈ found ∧
        ∀ term ∈ terms,
          term.1.Asks (term.2.Passes rows subject) := by
  induction terms generalizing found with
  | nil => simp [narrow]
  | cons term terms ih =>
      rcases term with ⟨op, test, args⟩
      have hLength : args.length = test.arity :=
        hFits (op, test, args) (by simp)
      have hRest : ∀ term ∈ terms, term.2.Fits :=
        fun term hTerm =>
          hFits term (List.mem_cons_of_mem _ hTerm)
      rw [List.map_cons, List.flatMap_cons, narrow,
        List.take_left' hLength, List.drop_left' hLength,
        ih hRest, SetOperator.mem_apply_iff,
        Test.mem_subjects_iff, List.forall_mem_cons, and_assoc]

/- A set that is narrowed has each subject still once. -/
theorem nodup_narrow
    {found : List String}
    (hNodup : found.Nodup)
    (rest : List (SetOperator × Test))
    (args : List Arg) :
    (narrow rows found rest args).Nodup := by
  induction rest generalizing found args with
  | nil => exact hNodup
  | cons term rest ih =>
      rcases term with ⟨op, test⟩
      apply ih
      cases op <;> exact hNodup.filter _

/- No subject is in a set twice. -/
theorem nodup_subjects
    (c : Compound)
    (args : List Arg) :
    (c.subjects args rows).Nodup :=
  nodup_narrow Test.nodup_subjects _ _

/- Further sets take the arguments of their tests. -/
theorem restArity_eq_sum (rest : List (SetOperator × Test)) :
    restArity rest = (rest.map fun t => t.2.arity).sum := by
  induction rest with
  | nil => rfl
  | cons term rest ih =>
      rw [restArity, ih, List.map_cons, List.sum_cons]

/- Tests that have their arguments take them all. -/
theorem restArity_map
    {terms : List Term}
    (hFits : ∀ term ∈ terms, term.2.Fits) :
    restArity (terms.map fun term => (term.1, term.2.1)) =
      (terms.flatMap fun term => term.2.2).length := by
  induction terms with
  | nil => rfl
  | cons term terms ih =>
      have hFirst : term.2.2.length = term.2.1.arity :=
        hFits term (by simp)
      have hRest := ih fun term hTerm =>
        hFits term (List.mem_cons_of_mem _ hTerm)
      rw [List.map_cons, restArity, hRest, List.flatMap_cons,
        List.length_append, hFirst]

end Compound

------------------------------------------------------------
-- Candidates
------------------------------------------------------------

/- The further tests of a set: those required, then the others. -/
def furtherTerms
    (required excluded : List BoundTest) : List Term :=
  required.map (fun t => (.intersect, t))
    ++ excluded.map (fun t => (.except, t))

section Candidates

variable {first : BoundTest}
variable {required excluded : List BoundTest}

/-
  The set of candidates starts from the first test and is
  narrowed by the further ones, each with its arguments.
-/
theorem candidates_eq :
    candidates first required excluded =
      (⟨first.1, (furtherTerms required excluded).map
          fun term => (term.1, term.2.1)⟩,
        first.2 ++ (furtherTerms required excluded).flatMap
          fun term => term.2.2) := by
  simp [candidates, furtherTerms, List.flatMap_map,
    Function.comp_def]

/- Required and excluded tests have their arguments. -/
theorem fits_furtherTerms
    (hRequired : ∀ t ∈ required, t.Fits)
    (hExcluded : ∀ t ∈ excluded, t.Fits) :
    ∀ term ∈ furtherTerms required excluded, term.2.Fits := by
  intro term hTerm
  rcases List.mem_append.mp hTerm with hTerm | hTerm
  · rcases List.mem_map.mp hTerm with ⟨t, hTest, rfl⟩
    exact hRequired t hTest
  · rcases List.mem_map.mp hTerm with ⟨t, hTest, rfl⟩
    exact hExcluded t hTest

/- A set comes with as many arguments as it takes. -/
theorem length_candidates
    (hFirst : first.Fits)
    (hRequired : ∀ t ∈ required, t.Fits)
    (hExcluded : ∀ t ∈ excluded, t.Fits) :
    (candidates first required excluded).2.length =
      (candidates first required excluded).1.arity := by
  have hFits := fits_furtherTerms hRequired hExcluded
  rw [candidates_eq, List.length_append, Compound.arity,
    Compound.restArity_map hFits, hFirst]

/-
  A set holds the subjects that pass the first test, all that
  are required and none that is excluded.
-/
theorem mem_candidates_iff
    (hFirst : first.Fits)
    (hRequired : ∀ t ∈ required, t.Fits)
    (hExcluded : ∀ t ∈ excluded, t.Fits)
    {rows : List Row}
    {subject : String} :
    subject ∈ (candidates first required excluded).1.subjects
        (candidates first required excluded).2 rows ↔
      first.Passes rows subject ∧
        (∀ t ∈ required, t.Passes rows subject) ∧
        ∀ t ∈ excluded, ¬t.Passes rows subject := by
  have hFits := fits_furtherTerms hRequired hExcluded
  rw [candidates_eq, Compound.subjects,
    List.take_left' hFirst, List.drop_left' hFirst,
    Compound.mem_narrow_iff hFits, Test.mem_subjects_iff,
    furtherTerms, List.forall_mem_append, List.forall_mem_map,
    List.forall_mem_map]
  rfl

/- Each test is one set of the statement. -/
theorem length_tests_candidates :
    (candidates first required excluded).1.tests.length =
      1 + required.length + excluded.length := by
  simp [candidates, Compound.tests]
  omega

end Candidates

------------------------------------------------------------
-- Joins
------------------------------------------------------------

/- A join with distinct subjects is a choice of rows. -/
theorem Row.join_eq_filter
    {found : List String}
    (hNodup : found.Nodup)
    (rows : List Row) :
    Row.join found rows =
      rows.filter fun r => r.subject ∈ found := by
  induction rows with
  | nil => rfl
  | cons r rows ih =>
      rw [Row.join] at ih ⊢
      rw [List.flatMap_cons, ih, List.filter_cons]
      rw [List.filter_eq, hNodup.count]
      by_cases hFound : r.subject ∈ found <;> simp [hFound]

------------------------------------------------------------
-- Tests on Rows of Triples
------------------------------------------------------------

section Meaning

variable {rows : List Row}
variable {ts : List Triple}
variable {subject : String}

/- Rows are those of the triples that they are sorted to. -/
theorem mem_rows_iff
    (hSort : Row.sort rows = ts.map Triple.row)
    {r : Row} :
    r ∈ rows ↔ ∃ t ∈ ts, t.row = r := by
  rw [← Row.mem_sort_iff, hSort, List.mem_map]

variable (hSort : Row.sort rows = ts.map Triple.row)
include hSort

/- A subject passes a test if one of its triples does. -/
theorem passes_iff {t : BoundTest} :
    t.Passes rows subject ↔
      ∃ u ∈ ts, u.subject = subject ∧
        t.1.holds t.2 u.row = true := by
  constructor
  · rintro ⟨r, hRow, hSubject, hPass⟩
    rcases (mem_rows_iff hSort).mp hRow with ⟨u, hTriple, rfl⟩
    exact ⟨u, hTriple, hSubject, hPass⟩
  · rintro ⟨u, hTriple, hSubject, hPass⟩
    exact ⟨u.row, (mem_rows_iff hSort).mpr ⟨u, hTriple, rfl⟩,
      hSubject, hPass⟩

/- The test of a clause asks for the triple it states. -/
theorem Clause.passes_test_iff (c : Clause) :
    c.test.Passes rows subject ↔ c.Holds ts subject := by
  rw [passes_iff hSort]
  constructor
  · rintro ⟨⟨s, p, v⟩, hTriple, hSubject, hPass⟩
    simp only [Clause.test, Test.holds, Triple.row,
      Bool.and_eq_true, decide_eq_true_eq,
      Cell.text.injEq] at hSubject hPass
    rcases hPass with ⟨rfl, rfl⟩
    rw [← hSubject]
    exact hTriple
  · intro hHolds
    exact ⟨_, hHolds, rfl, by
      simp [Clause.test, Test.holds, Triple.row]⟩

/- The test for a predicate asks for any value of it. -/
theorem passes_hasTest_iff (predicate : String) :
    (hasTest predicate).Passes rows subject ↔
      HasAny ts subject predicate := by
  rw [passes_iff hSort]
  simp [hasTest, Test.holds, Triple.row, HasAny]

/- The test that a query starts from asks what it says. -/
theorem Primary.passes_test_iff (p : Primary) :
    p.test.Passes rows subject ↔ p.Holds ts subject := by
  cases p with
  | equals c => exact c.passes_test_iff hSort
  | begins predicate start =>
      rw [passes_iff hSort]
      simp only [Primary.test, Test.holds, Triple.row,
        Cell.startsWith, Primary.Holds, HasStart,
        List.prefix_iff_eq_take, Bool.and_eq_true,
        decide_eq_true_eq, String.length_toList]
      simp only [eq_comm]

end Meaning

end Factbase
