import Factbase.Proofs.Grouping.Contents
import Mathlib.Algebra.Ring.Nat

/-
  The outcome of grouping triples that are in any order.

  The pass stops at the first triple of a subject that it has
  left, since up to there the subjects are contiguous and the
  pass follows them.  Where there is no such triple it goes on
  to the end, and each step adds one value to its groups or one
  failure beside them, so none of the triples is lost or taken
  twice.

  Key definitions include:
    * `Triple.Reappears`
    * `Interrupted`
    * `FirstReappears`
    * `GroupingPass.size`
    * `Grouping.Collects`

  Main declarations:
    * `interrupted_iff`
    * `Interrupted.exists_first`
    * `FirstReappears.grouped_eq`
    * `GroupingPass.size_step`
    * `GroupingPass.size_run`
    * `grouped_outcome`
-/

namespace Factbase

variable {ts : List Triple}
variable {subject : String}

------------------------------------------------------------
-- Subjects That Come Again
------------------------------------------------------------

/- The subject of a triple came before, but not just before. -/
def Triple.Reappears
    (t : Triple)
    (before : List Triple) : Prop :=
  t.subject ∈ before.map Triple.subject ∧
    (before.map Triple.subject).getLast? ≠ some t.subject

/- Some subject comes again after another one. -/
def Interrupted (ts : List Triple) : Prop :=
  ∃ before t after,
    ts = before ++ t :: after ∧ t.Reappears before

/- The first subject that comes again after another one. -/
def FirstReappears
    (ts : List Triple)
    (subject : String) : Prop :=
  ∃ before t after,
    ts = before ++ t :: after ∧ t.Reappears before ∧
      ¬ Interrupted before ∧ t.subject = subject

theorem interrupted_iff :
    Interrupted ts ↔ ¬ Contiguous (ts.map Triple.subject) := by
  constructor
  · rintro ⟨before, t, after, rfl, hBefore, hLast⟩ hContiguous
    refine hLast (hContiguous (before.map Triple.subject)
      t.subject (after.map Triple.subject) ?_ hBefore)
    rw [List.map_append, List.map_cons]
  · intro hBroken
    by_contra hNever
    refine hBroken fun before x after hSplit hBefore => ?_
    by_contra hLast
    rcases List.map_eq_append_iff.mp hSplit with
      ⟨front, back, rfl, rfl, hBack⟩
    rcases List.map_eq_cons_iff.mp hBack with
      ⟨t, rest, rfl, rfl, rfl⟩
    exact hNever ⟨front, t, rest, rfl, hBefore, hLast⟩

/- The induction is on the triples from the last one back. -/
theorem Interrupted.exists_first
    (hInterrupted : Interrupted ts) :
    ∃ subject, FirstReappears ts subject := by
  induction ts using List.reverseRecOn with
  | nil =>
      rcases hInterrupted with ⟨before, t, after, hSplit, _⟩
      simp at hSplit
  | append_singleton ts u ih =>
      by_cases hEarlier : Interrupted ts
      · rcases ih hEarlier with
          ⟨_, before, t, after, rfl, hAgain, hFirst, rfl⟩
        refine ⟨t.subject, before, t, after ++ [u], ?_, hAgain,
          hFirst, rfl⟩
        rw [List.append_assoc, List.cons_append]
      · rcases hInterrupted with
          ⟨before, t, after, hSplit, hAgain⟩
        rcases List.eq_nil_or_concat' after with
          rfl | ⟨after, w, rfl⟩
        · exact ⟨_, before, t, [], hSplit, hAgain,
            (List.append_inj' hSplit rfl).1 ▸ hEarlier, rfl⟩
        · -- what reappears is before the last triple
          rw [← List.cons_append, ← List.append_assoc] at hSplit
          exact absurd ⟨before, t, after,
            (List.append_inj' hSplit rfl).1, hAgain⟩ hEarlier

theorem FirstReappears.interrupted
    (hFirst : FirstReappears ts subject) : Interrupted ts := by
  rcases hFirst with ⟨before, t, after, hSplit, hAgain, _⟩
  exact ⟨before, t, after, hSplit, hAgain⟩

------------------------------------------------------------
-- Passes That Stop
------------------------------------------------------------

/- A pass does not go back to a subject that it has left. -/
theorem GroupingPass.Follows.step_eq_error
    {p : GroupingPass}
    {seen : List String}
    {t : Triple}
    (hFollows : p.Follows seen)
    (hOld : t.subject ∈ seen)
    (hLast : seen.getLast? ≠ some t.subject) :
    p.step t = .error (.ungrouped t.subject) := by
  rw [GroupingPass.step, hFollows.current, if_neg hLast, turnTo,
    if_pos ((hFollows.started _).mpr hOld)]
  rfl

/- Before the first subject that reappears there are groups. -/
theorem FirstReappears.grouped_eq
    (hFirst : FirstReappears ts subject) :
    grouped ts = .error (.ungrouped subject) := by
  rcases hFirst with
    ⟨before, t, after, rfl, ⟨hOld, hLast⟩, hBefore, rfl⟩
  rw [interrupted_iff, not_not] at hBefore
  rcases GroupingPass.follows_start.exists_run before hBefore with
    ⟨p, hRun, hFollows⟩
  have hStop : p.step t = .error (.ungrouped t.subject) :=
    hFollows.step_eq_error hOld hLast
  rw [grouped, List.foldlM_append, hRun]
  change Except.map _ (List.foldlM _ p (t :: after)) = _
  rw [List.foldlM_cons, hStop]
  rfl

------------------------------------------------------------
-- Number of Values
------------------------------------------------------------

namespace Entries

variable {α : Type}
variable {entries : Entries α}

/- The weight of all entries together. -/
def total
    (weight : α → Nat)
    (entries : Entries α) : Nat :=
  (entries.map fun e => weight e.2).sum

/- Setting an entry replaces the weight of the one before it. -/
theorem Sorted.total_insert
    (hSorted : Sorted entries)
    (weight : α → Nat)
    (key : String)
    (x : α) :
    (Entries.insert key x entries).total weight +
        ((entries.find? key).map weight).getD 0 =
      entries.total weight + weight x := by
  induction entries with
  | nil => simp [Entries.insert, find?, total]
  | cons e entries ih =>
      rcases e with ⟨k, y⟩
      rcases List.pairwise_cons.mp hSorted with ⟨hFirst, hRest⟩
      have hHead (es : Entries α) (z : α) :
          total weight ((k, z) :: es) =
            weight z + es.total weight := by
        rw [total, List.map_cons, List.sum_cons, total]
      rw [Entries.insert]
      split_ifs with hBefore hHere
      · have hNone : find? key ((k, y) :: entries) = none := by
          refine hSorted.find?_eq_none ?_
          rw [List.forall_mem_cons]
          exact ⟨hBefore, fun e hMember =>
            String.lt_trans hBefore (hFirst e hMember)⟩
        rw [hNone, total, List.map_cons, List.sum_cons, total]
        simp [Nat.add_comm]
      · rw [find?_cons, if_pos hHere, hHere, hHead, hHead]
        simp only [Option.map_some, Option.getD_some]
        omega
      · have hTail := ih hRest
        rw [find?_cons, if_neg hHere, hHead, hHead]
        omega

end Entries

/- The number of values of a group. -/
def Group.size (g : Group) : Nat :=
  g.properties.total List.length

theorem Group.size_add
    {g : Group}
    (hSorted : Entries.Sorted g.properties)
    (predicate : String)
    (v : Value) :
    (g.add predicate v).size = g.size + 1 := by
  have hTotal := hSorted.total_insert List.length predicate
    (g.values predicate ++ [v])
  rw [List.length_append, List.length_singleton] at hTotal
  have hOld :
      ((g.properties.find? predicate).map List.length).getD 0 =
        (g.values predicate).length := by
    rw [Group.values]
    cases g.properties.find? predicate <;> rfl
  change Entries.total _ (Entries.insert _ _ _) = _
  rw [Group.size]
  omega

namespace GroupingPass

variable {p p' : GroupingPass}

/- The number of values in groups and of failures so far. -/
def size (p : GroupingPass) : Nat :=
  (p.groups.map Group.size).sum + p.failures.length

/- A new group is empty and takes nothing from the others. -/
theorem size_turnTo
    (hTurn : p.turnTo subject = .ok p') :
    p'.current = some (.empty subject) ∧ p'.size = p.size := by
  rw [turnTo] at hTurn
  split_ifs at hTurn
  cases hTurn
  refine ⟨rfl, ?_⟩
  simp [size, groups, Group.size, Group.empty, Entries.total]

/- A triple adds one value to the open group or one failure. -/
theorem size_take
    {g : Group}
    (hOpen : p.current = some g)
    (hSorted : Entries.Sorted g.properties)
    (t : Triple) :
    (p.take t).size = p.size + 1 := by
  rw [take]
  cases hValue : t.value with
  | ok v =>
      simp only [size, groups, hOpen, Option.map_some,
        Option.toList_some, List.singleton_append, List.map_cons,
        List.sum_cons, Group.size_add hSorted]
      omega
  | error e =>
      simp only [size, groups, List.length_cons]
      omega

/- One step counts its triple once. -/
theorem size_step
    {t : Triple}
    (hGathers : p.Gathers ts)
    (hFollows : p.Follows (ts.map Triple.subject))
    (hStep : p.step t = .ok p') : p'.size = p.size + 1 := by
  rcases hFollows.step_cases hStep with
    ⟨hLast, rfl⟩ | ⟨_, q, hTurn, rfl⟩
  · rcases hFollows.exists_current hLast with ⟨g, hOpen, _⟩
    refine size_take hOpen (hGathers.groups g ?_).sorted t
    simp [groups, hOpen]
  · rcases size_turnTo hTurn with ⟨hOpen, hSize⟩
    rw [size_take hOpen .nil t, hSize]

/- The induction is on the triples that are still to come. -/
theorem size_run
    {rest : List Triple}
    (hGathers : p.Gathers ts)
    (hFollows : p.Follows (ts.map Triple.subject))
    (hRun : rest.foldlM GroupingPass.step p = .ok p') :
    p'.size = p.size + rest.length := by
  induction rest generalizing p ts with
  | nil =>
      cases hRun
      rfl
  | cons t rest ih =>
      rw [List.foldlM_cons] at hRun
      cases hStep : p.step t with
      | error e =>
          rw [hStep] at hRun
          cases hRun
      | ok q =>
          rw [hStep] at hRun
          have hSubjects : q.Follows
              ((ts ++ [t]).map Triple.subject) := by
            rw [List.map_append]
            exact hFollows.step hStep
          have hRest := ih (hGathers.step hFollows hStep)
            hSubjects hRun
          rw [hRest, size_step hGathers hFollows hStep,
            List.length_cons]
          omega

end GroupingPass

------------------------------------------------------------
-- Outcomes
------------------------------------------------------------

/-
  Groups have what triples say: a group for each subject in the
  order they first came, even if it is empty, in the groups the
  values that are decoded, and beside them what is not.
-/
structure Grouping.Collects
    (g : Grouping)
    (ts : List Triple) : Prop where
  subjects :
    g.groups.map Group.subject =
      (ts.map Triple.subject).eraseDups
  groups : ∀ h ∈ g.groups, h.Gathers ts
  failures : g.failures = failuresOf ts
  size :
    (g.groups.map Group.size).sum + g.failures.length = ts.length

theorem size_of_grouped
    {g : Grouping}
    (hGrouped : grouped ts = .ok g) :
    (g.groups.map Group.size).sum + g.failures.length =
      ts.length := by
  rw [grouped] at hGrouped
  cases hRun : ts.foldlM GroupingPass.step .start with
  | error e =>
      rw [hRun] at hGrouped
      cases hGrouped
  | ok p =>
      rw [hRun] at hGrouped
      cases hGrouped
      have hStart : GroupingPass.start.Gathers [] :=
        ⟨by simp [GroupingPass.start, GroupingPass.groups], rfl⟩
      have hSize := GroupingPass.size_run hStart
        GroupingPass.follows_start hRun
      have hNone : GroupingPass.start.size = 0 := rfl
      rw [hNone, Nat.zero_add] at hSize
      rw [← hSize, GroupingPass.size, GroupingPass.finish,
        List.map_reverse, List.sum_reverse, List.length_reverse]

/- Without interruptions, everything is collected. -/
theorem exists_collects
    (hWhole : ¬ Interrupted ts) :
    ∃ g, grouped ts = .ok g ∧ g.Collects ts := by
  rw [interrupted_iff, not_not] at hWhole
  rcases exists_grouped hWhole with ⟨g, hGrouped, hSubjects⟩
  rcases gathers_of_grouped hGrouped with ⟨hGroups, hFailures⟩
  exact ⟨g, hGrouped, hSubjects, hGroups, hFailures,
    size_of_grouped hGrouped⟩

/- A grouping is strict until its first failure. -/
theorem Grouping.strict_cases (g : Grouping) :
    (g.failures = [] ∧ g.strict = .ok g.groups) ∨
    ∃ f rest, g.failures = f :: rest ∧
      g.strict = .error (.decode
        (f.triple.predicate ++ " of " ++ f.triple.subject ++ ": "
          ++ f.error.message)) := by
  rcases g with ⟨groups, _ | ⟨f, rest⟩⟩
  · exact .inl ⟨rfl, rfl⟩
  · exact .inr ⟨f, rest, rfl, rfl⟩

/-
  Grouping fails exactly if some subject comes again after
  another one, and then names the first such subject.  Otherwise
  all triples are collected, and the groups can be had without
  the failures exactly if there are none.
-/
theorem grouped_outcome (ts : List Triple) :
    ((∃ subject, grouped ts = .error (.ungrouped subject)) ↔
      Interrupted ts) ∧
    (∀ subject, grouped ts = .error (.ungrouped subject) ↔
      FirstReappears ts subject) ∧
    (¬ Interrupted ts ↔
      ∃ g, grouped ts = .ok g ∧ g.Collects ts ∧
        ((g.failures = [] ∧ g.strict = .ok g.groups) ∨
          ∃ f rest, g.failures = f :: rest ∧
            g.strict = .error (.decode
              (f.triple.predicate ++ " of " ++ f.triple.subject
                ++ ": " ++ f.error.message)))) := by
  have hOutcome :
      (∃ subject, FirstReappears ts subject ∧
        grouped ts = .error (.ungrouped subject)) ∨
      (¬ Interrupted ts ∧
        ∃ g, grouped ts = .ok g ∧ g.Collects ts) := by
    by_cases hInterrupted : Interrupted ts
    · rcases hInterrupted.exists_first with ⟨subject, hFirst⟩
      exact .inl ⟨subject, hFirst, hFirst.grouped_eq⟩
    · exact .inr ⟨hInterrupted, exists_collects hInterrupted⟩
  rcases hOutcome with
    ⟨subject, hFirst, hError⟩ | ⟨hWhole, g, hGrouped, hCollects⟩
  · refine ⟨⟨fun _ => hFirst.interrupted, fun _ => ⟨_, hError⟩⟩,
      fun other => ⟨fun hOther => ?_, fun hOther =>
        hOther.grouped_eq⟩,
      ⟨fun hWhole => absurd hFirst.interrupted hWhole, ?_⟩⟩
    · rw [hError] at hOther
      cases hOther
      exact hFirst
    · rintro ⟨g, hGrouped, _⟩
      rw [hError] at hGrouped
      cases hGrouped
  · have hNever (s : String) :
        grouped ts ≠ .error (.ungrouped s) := by
      rw [hGrouped]
      exact nofun
    refine ⟨⟨fun ⟨s, hError⟩ => absurd hError (hNever s),
        fun h => absurd h hWhole⟩,
      fun s => ⟨fun hError => absurd hError (hNever s),
        fun h => absurd h.interrupted hWhole⟩,
      ⟨fun _ => ⟨g, hGrouped, hCollects, g.strict_cases⟩,
        fun _ => hWhole⟩⟩

end Factbase
