import Factbase.Proofs.Data.Entries
import Factbase.Proofs.Grouping.Subjects

/-
  The values of the groups that one pass makes.

  A step adds the value of its triple to the group of its
  subject and to no other, since each subject has one group.  So
  every group holds the values of its subject that were decoded,
  in the order of the triples, and what could not be decoded is
  noted beside the groups.

  Key definitions include:
    * `valuesOf`
    * `failuresOf`
    * `Group.Gathers`
    * `GroupingPass.Gathers`

  Main declarations:
    * `GroupingPass.Gathers.step`
    * `GroupingPass.Gathers.run`
    * `gathers_of_grouped`
-/

namespace Factbase

------------------------------------------------------------
-- Values of a Subject
------------------------------------------------------------

/- The values of a subject and a predicate that are decoded. -/
def valuesOf
    (ts : List Triple)
    (subject predicate : String) : List Value :=
  ts.filterMap fun t =>
    if t.subject = subject ∧ t.predicate = predicate then
      t.value.toOption
    else none

/- The triples whose values cannot be decoded, and why. -/
def failuresOf (ts : List Triple) : List GroupingFailure :=
  ts.filterMap fun t =>
    match t.value with
    | .ok _ => none
    | .error e => some ⟨t, e⟩

/- A value is gathered if a triple of the subject has it. -/
theorem mem_valuesOf_iff
    {ts : List Triple}
    {subject predicate : String}
    {v : Value} :
    v ∈ valuesOf ts subject predicate ↔
      ∃ t ∈ ts, t.subject = subject ∧ t.predicate = predicate ∧
        t.value = .ok v := by
  rw [valuesOf, List.mem_filterMap]
  refine exists_congr fun t => and_congr_right fun _ => ?_
  rw [← and_assoc]
  split_ifs with hMatch
  · cases hValue : t.value <;>
      simp [Except.toOption, hMatch]
  · simp [hMatch]

/- Nothing fails where every triple has a value. -/
theorem failuresOf_eq_nil_iff {ts : List Triple} :
    failuresOf ts = [] ↔ ∀ t ∈ ts, ∃ v, t.value = .ok v := by
  rw [failuresOf, List.filterMap_eq_nil_iff]
  refine forall₂_congr fun t _ => ?_
  cases hValue : t.value <;> simp

/- What the next triple adds to the values. -/
theorem valuesOf_concat
    (ts : List Triple)
    (t : Triple)
    (subject predicate : String) :
    valuesOf (ts ++ [t]) subject predicate =
      valuesOf ts subject predicate ++
        valuesOf [t] subject predicate :=
  List.filterMap_append

theorem valuesOf_singleton_ok
    {t : Triple}
    {v : Value}
    (hValue : t.value = .ok v)
    (predicate : String) :
    valuesOf [t] t.subject predicate =
      if predicate = t.predicate then [v] else [] := by
  by_cases hMatch : predicate = t.predicate <;>
    simp [valuesOf, hValue, hMatch, Except.toOption, eq_comm]

theorem valuesOf_singleton_error
    {t : Triple}
    {e : StoreError}
    (hValue : t.value = .error e)
    (subject predicate : String) :
    valuesOf [t] subject predicate = [] := by
  simp [valuesOf, hValue, Except.toOption]

theorem valuesOf_eq_nil
    {ts : List Triple}
    {subject : String}
    (hOther : ∀ t ∈ ts, t.subject ≠ subject)
    (predicate : String) :
    valuesOf ts subject predicate = [] := by
  rw [valuesOf, List.filterMap_eq_nil_iff]
  intro t hMember
  rw [if_neg fun hMatch => hOther t hMember hMatch.1]

------------------------------------------------------------
-- One Group
------------------------------------------------------------

/-
  A group has what triples say about its subject: an entry for
  each predicate with a value, and in it all the values.
-/
structure Group.Gathers
    (g : Group)
    (ts : List Triple) : Prop where
  sorted : Entries.Sorted g.properties
  entry :
    ∀ predicate values,
      g.properties.find? predicate = some values ↔
        values = valuesOf ts g.subject predicate ∧ values ≠ []

namespace Group.Gathers

variable {g : Group}
variable {ts : List Triple}

/- A group answers the values of its triples in their order. -/
theorem values
    (hGathers : g.Gathers ts)
    (predicate : String) :
    g.values predicate = valuesOf ts g.subject predicate := by
  rw [Group.values]
  cases hEntry : g.properties.find? predicate with
  | some vs => exact ((hGathers.entry predicate vs).mp hEntry).1
  | none =>
      by_contra hSome
      rw [Option.getD_none] at hSome
      have hThere := (hGathers.entry predicate _).mpr
        ⟨rfl, Ne.symm hSome⟩
      rw [hEntry] at hThere
      cases hThere

/- A triple without a value for the group leaves it complete. -/
theorem skip
    (hGathers : g.Gathers ts)
    {t : Triple}
    (hNothing : ∀ predicate, valuesOf [t] g.subject predicate = []) :
    g.Gathers (ts ++ [t]) := by
  refine ⟨hGathers.sorted, fun predicate values => ?_⟩
  rw [valuesOf_concat, hNothing, List.append_nil]
  exact hGathers.entry predicate values

/- A value of the subject goes to the end of its predicate. -/
theorem add
    {t : Triple}
    {v : Value}
    (hGathers : g.Gathers ts)
    (hSubject : g.subject = t.subject)
    (hValue : t.value = .ok v) :
    (g.add t.predicate v).Gathers (ts ++ [t]) := by
  refine ⟨hGathers.sorted.insert _ _, fun predicate values => ?_⟩
  have hValues := hGathers.values t.predicate
  simp only [Group.add, Entries.find?_insert, valuesOf_concat,
    hSubject, valuesOf_singleton_ok hValue] at hValues ⊢
  split_ifs with hPredicate
  · subst hPredicate
    rw [hValues, Option.some.injEq]
    constructor
    · rintro rfl
      simp
    · exact fun h => h.1.symm
  · rw [List.append_nil, ← hSubject]
    exact hGathers.entry predicate values

theorem empty
    {subject : String}
    (hNew : ∀ t ∈ ts, t.subject ≠ subject) :
    (Group.empty subject).Gathers ts := by
  refine ⟨.nil, fun predicate values => ?_⟩
  simp [Group.empty, Entries.find?, valuesOf_eq_nil hNew]

end Group.Gathers

------------------------------------------------------------
-- The Whole Pass
------------------------------------------------------------

/-
  What a pass knows after some triples: all of their values are
  in its groups or noted as failures.
-/
structure GroupingPass.Gathers
    (p : GroupingPass)
    (ts : List Triple) : Prop where
  groups : ∀ g ∈ p.groups, g.Gathers ts
  failures : p.failures.reverse = failuresOf ts

namespace GroupingPass

variable {p p' : GroupingPass}
variable {seen : List String}
variable {ts : List Triple}

/- A step takes its triple to the group of the last subject. -/
theorem Follows.step_cases
    {t : Triple}
    (hFollows : p.Follows seen)
    (hStep : p.step t = .ok p') :
    (seen.getLast? = some t.subject ∧ p' = p.take t) ∨
    (t.subject ∉ seen ∧ ∃ q,
      p.turnTo t.subject = .ok q ∧ p' = q.take t) := by
  rw [step, hFollows.current] at hStep
  split_ifs at hStep with hLast
  · exact .inl ⟨hLast, (Except.ok.inj hStep).symm⟩
  · refine .inr ?_
    cases hTurn : p.turnTo t.subject with
    | error e =>
        rw [hTurn] at hStep
        cases hStep
    | ok q =>
        rw [hTurn] at hStep
        refine ⟨?_, q, rfl, (Except.ok.inj hStep).symm⟩
        intro hOld
        rw [turnTo, if_pos ((hFollows.started _).mpr hOld)]
          at hTurn
        cases hTurn

/- A step that is taken follows the subject of its triple. -/
theorem Follows.step
    {t : Triple}
    (hFollows : p.Follows seen)
    (hStep : p.step t = .ok p') :
    p'.Follows (seen ++ [t.subject]) := by
  rcases hFollows.step_cases hStep with
    ⟨hLast, rfl⟩ | ⟨hNew, q, hTurn, rfl⟩
  · exact (hFollows.repeat hLast).take t
  · rcases hFollows.exists_turnTo hNew with ⟨q', hTurn', hTurned⟩
    rw [hTurn] at hTurn'
    cases hTurn'
    exact hTurned.take t

/- The groups that are finished are of other subjects. -/
theorem Follows.exists_current
    (hFollows : p.Follows seen)
    {subject : String}
    (hLast : seen.getLast? = some subject) :
    ∃ g, p.current = some g ∧ g.subject = subject ∧
      ∀ h ∈ p.finished, h.subject ≠ subject := by
  have hCurrent := hFollows.current
  rw [hLast, Option.map_eq_some_iff] at hCurrent
  rcases hCurrent with ⟨g, hOpen, hSubject⟩
  refine ⟨g, hOpen, hSubject, ?_⟩
  have hNodup : (p.groups.map Group.subject).Nodup := by
    rw [← List.nodup_reverse, ← GroupingPass.subjects,
      hFollows.groups]
    exact nodup_eraseDups seen
  rw [GroupingPass.groups, hOpen, Option.toList_some,
    List.singleton_append, List.map_cons, List.nodup_cons,
    hSubject] at hNodup
  intro h hFinished hSame
  exact hNodup.1 (hSame ▸ List.mem_map_of_mem hFinished)

/- The group of the last subject takes a triple of it. -/
theorem Gathers.take
    {t : Triple}
    (hGathers : p.Gathers ts)
    (hFollows : p.Follows seen)
    (hLast : seen.getLast? = some t.subject) :
    (p.take t).Gathers (ts ++ [t]) := by
  rcases hFollows.exists_current hLast with
    ⟨g, hOpen, hSubject, hOthers⟩
  have hGroups := hGathers.groups
  rw [GroupingPass.groups, hOpen, Option.toList_some,
    List.singleton_append, List.forall_mem_cons] at hGroups
  rw [GroupingPass.take]
  cases hValue : t.value with
  | ok v =>
      refine ⟨?_, ?_⟩
      · simp only [GroupingPass.groups, hOpen, Option.map_some,
          Option.toList_some, List.singleton_append,
          List.forall_mem_cons]
        refine ⟨hGroups.1.add hSubject hValue, fun h hFinished => ?_⟩
        apply (hGroups.2 h hFinished).skip
        apply valuesOf_eq_nil
        simpa using (hOthers h hFinished).symm
      · simp [hGathers.failures, failuresOf, hValue]
  | error e =>
      refine ⟨fun h hMember => ?_, ?_⟩
      · exact (hGathers.groups h hMember).skip
          (valuesOf_singleton_error hValue h.subject)
      · simp [hGathers.failures, failuresOf, hValue]

/- The group of a new subject is empty, and nothing is lost. -/
theorem Gathers.turnTo
    {subject : String}
    (hGathers : p.Gathers ts)
    (hNew : ∀ t ∈ ts, t.subject ≠ subject)
    (hTurn : p.turnTo subject = .ok p') : p'.Gathers ts := by
  rw [GroupingPass.turnTo] at hTurn
  split_ifs at hTurn
  cases hTurn
  refine ⟨?_, hGathers.failures⟩
  simp only [GroupingPass.groups, Option.toList_some,
    List.singleton_append, List.forall_mem_cons]
  exact ⟨.empty hNew, hGathers.groups⟩

/- One step loses no value and no failure. -/
theorem Gathers.step
    {t : Triple}
    (hGathers : p.Gathers ts)
    (hFollows : p.Follows (ts.map Triple.subject))
    (hStep : p.step t = .ok p') : p'.Gathers (ts ++ [t]) := by
  rcases hFollows.step_cases hStep with
    ⟨hLast, rfl⟩ | ⟨hNew, q, hTurn, rfl⟩
  · exact hGathers.take hFollows hLast
  · rcases hFollows.exists_turnTo hNew with ⟨q', hTurn', hTurned⟩
    rw [hTurn] at hTurn'
    cases hTurn'
    refine (hGathers.turnTo ?_ hTurn).take hTurned
      List.getLast?_concat
    intro u hMember hSame
    exact hNew (hSame ▸ List.mem_map_of_mem hMember)

/- The induction is on the triples that are still to come. -/
theorem Gathers.run
    {rest : List Triple}
    (hGathers : p.Gathers ts)
    (hFollows : p.Follows (ts.map Triple.subject))
    (hRun : rest.foldlM GroupingPass.step p = .ok p') :
    p'.Gathers (ts ++ rest) := by
  induction rest generalizing p ts with
  | nil =>
      cases hRun
      rwa [List.append_nil]
  | cons t rest ih =>
      rw [List.foldlM_cons] at hRun
      cases hStep : p.step t with
      | error e =>
          rw [hStep] at hRun
          cases hRun
      | ok q =>
          rw [hStep] at hRun
          rw [List.append_cons]
          refine ih (hGathers.step hFollows hStep) ?_ hRun
          rw [List.map_append]
          exact hFollows.step hStep

end GroupingPass

/- What is grouped has all values in its groups or failures. -/
theorem gathers_of_grouped
    {ts : List Triple}
    {g : Grouping}
    (hGrouped : grouped ts = .ok g) :
    (∀ h ∈ g.groups, h.Gathers ts) ∧
      g.failures = failuresOf ts := by
  rw [grouped] at hGrouped
  cases hRun : ts.foldlM GroupingPass.step .start with
  | error e =>
      rw [hRun] at hGrouped
      cases hGrouped
  | ok p =>
      rw [hRun] at hGrouped
      cases hGrouped
      have hStart : GroupingPass.start.Gathers [] :=
        ⟨by simp [GroupingPass.start, GroupingPass.groups], rfl⟩
      have hGathers :=
        hStart.run GroupingPass.follows_start hRun
      exact ⟨fun h hMember =>
          hGathers.groups h (List.mem_reverse.mp hMember),
        hGathers.failures⟩

end Factbase
