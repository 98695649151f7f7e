import Factbase.Grouping
import Mathlib.Data.List.Induction
import Mathlib.Data.List.Nodup

/-
  The subjects of the groups that one pass makes.

  The pass has one group open, that of the last subject it saw.
  As long as the triples of each subject follow each other, no
  subject comes again after another one, so the pass goes on to
  the end and leaves one group for each subject, in the order in
  which they first came.

  Key definitions include:
    * `Contiguous`
    * `GroupingPass.Follows`

  Main declarations:
    * `contiguous_of_pairwise`
    * `nodup_eraseDups`
    * `GroupingPass.Follows.exists_step`
    * `GroupingPass.Follows.exists_run`
    * `exists_grouped`
-/

namespace Factbase

------------------------------------------------------------
-- Lists without Interruptions
------------------------------------------------------------

/- What comes again in a list comes right after itself. -/
def Contiguous
    {α : Type}
    (xs : List α) : Prop :=
  ∀ before x after,
    xs = before ++ x :: after → x ∈ before →
      before.getLast? = some x

/- A list in some order has its equal members together. -/
theorem contiguous_of_pairwise
    {α : Type}
    {r : α → α → Prop}
    (hAntisymm : ∀ x y, r x y → r y x → x = y)
    {xs : List α}
    (hOrdered : xs.Pairwise r) : Contiguous xs := by
  intro before x after hSplit hBefore
  rcases List.eq_nil_or_concat' before with rfl | ⟨front, y, rfl⟩
  · cases hBefore
  · rw [List.getLast?_concat]
    rcases List.mem_append.mp hBefore with hFront | hLast
    · -- `y` stands between two places of `x`
      rw [hSplit, List.append_assoc, List.pairwise_append]
        at hOrdered
      rcases hOrdered with ⟨_, hRest, hAcross⟩
      have hFirst : r x y := hAcross x hFront y (by simp)
      have hSecond : r y x := by
        rw [List.singleton_append] at hRest
        exact List.rel_of_pairwise_cons hRest (by simp)
      rw [hAntisymm x y hFirst hSecond]
    · rw [List.mem_singleton.mp hLast]

theorem eraseDups_concat
    {α : Type} [DecidableEq α]
    (xs : List α)
    (x : α) :
    (xs ++ [x]).eraseDups =
      if x ∈ xs then xs.eraseDups else xs.eraseDups ++ [x] := by
  rw [List.eraseDups_append]
  by_cases hThere : x ∈ xs <;>
    simp [List.removeAll, hThere, List.eraseDups_cons]

/- What is left without duplicates has none. -/
theorem nodup_eraseDups
    {α : Type} [DecidableEq α]
    (xs : List α) : xs.eraseDups.Nodup := by
  induction xs using List.reverseRecOn with
  | nil => simp
  | append_singleton xs x ih =>
      rw [eraseDups_concat]
      split_ifs with hThere
      · exact ih
      · rw [← List.concat_eq_append]
        exact ih.concat (mt List.mem_eraseDups.mp hThere)

------------------------------------------------------------
-- One Step
------------------------------------------------------------

namespace GroupingPass

variable {p : GroupingPass}
variable {seen : List String}

/- The subjects of the groups so far, in the order they came. -/
def subjects (p : GroupingPass) : List String :=
  (p.groups.map Group.subject).reverse

/-
  What a pass knows after some subjects: which they are, that
  the last one has the group being filled, and one group each.
-/
structure Follows
    (p : GroupingPass)
    (seen : List String) : Prop where
  started : ∀ s, s ∈ p.started ↔ s ∈ seen
  current : p.current.map Group.subject = seen.getLast?
  groups : p.subjects = seen.eraseDups

theorem follows_start : start.Follows [] :=
  ⟨fun _ => Iff.rfl, rfl, rfl⟩

@[simp] theorem started_take (p : GroupingPass) (t : Triple) :
    (p.take t).started = p.started := by
  rw [take]
  split <;> rfl

@[simp] theorem current_take (p : GroupingPass) (t : Triple) :
    (p.take t).current.map Group.subject =
      p.current.map Group.subject := by
  rw [take]
  split
  · cases p.current <;> rfl
  · rfl

@[simp] theorem subjects_take (p : GroupingPass) (t : Triple) :
    (p.take t).subjects = p.subjects := by
  rw [take]
  split
  · rcases p with ⟨started, _ | g, finished, failures⟩ <;> rfl
  · rfl

/- Values do not matter for the subjects of the groups. -/
theorem Follows.take
    (hFollows : p.Follows seen)
    (t : Triple) : (p.take t).Follows seen := by
  refine ⟨?_, ?_, ?_⟩
  · rw [started_take]
    exact hFollows.started
  · rw [current_take]
    exact hFollows.current
  · rw [subjects_take]
    exact hFollows.groups

/- A subject that is new gets a group of its own. -/
theorem Follows.exists_turnTo
    (hFollows : p.Follows seen)
    {subject : String}
    (hNew : subject ∉ seen) :
    ∃ p', p.turnTo subject = .ok p' ∧
      p'.Follows (seen ++ [subject]) := by
  rw [turnTo, if_neg (mt (hFollows.started subject).mp hNew)]
  refine ⟨_, rfl, ?_, ?_, ?_⟩
  · intro s
    rw [List.mem_cons, hFollows.started, List.mem_append,
      List.mem_singleton, or_comm]
  · simp [Group.empty]
  · have hGroups := hFollows.groups
    rw [eraseDups_concat, if_neg hNew, ← hGroups]
    simp [GroupingPass.subjects, GroupingPass.groups,
      Group.empty]

/- The same subject again goes to the group being filled. -/
theorem Follows.repeat
    (hFollows : p.Follows seen)
    {subject : String}
    (hLast : seen.getLast? = some subject) :
    p.Follows (seen ++ [subject]) := by
  have hThere := List.mem_of_getLast? hLast
  refine ⟨?_, ?_, ?_⟩
  · intro s
    rw [hFollows.started, List.mem_append, List.mem_singleton]
    constructor
    · exact Or.inl
    · rintro (hOld | rfl)
      · exact hOld
      · exact hThere
  · rw [hFollows.current, hLast, List.getLast?_concat]
  · rw [hFollows.groups, eraseDups_concat, if_pos hThere]

/-
  One step goes on with the group of the last subject, or turns
  to a new one.
-/
theorem Follows.exists_step
    (hFollows : p.Follows seen)
    (t : Triple)
    (hOnce : t.subject ∈ seen →
      seen.getLast? = some t.subject) :
    ∃ p', p.step t = .ok p' ∧
      p'.Follows (seen ++ [t.subject]) := by
  rw [step, hFollows.current]
  by_cases hLast : seen.getLast? = some t.subject
  · rw [if_pos hLast]
    exact ⟨_, rfl, (hFollows.repeat hLast).take t⟩
  · rw [if_neg hLast]
    rcases hFollows.exists_turnTo (mt hOnce hLast) with
      ⟨p', hTurn, hFollows'⟩
    rw [hTurn]
    exact ⟨_, rfl, hFollows'.take t⟩

------------------------------------------------------------
-- The Whole Pass
------------------------------------------------------------

/- The induction is on the triples that are still to come. -/
theorem Follows.exists_run
    (hFollows : p.Follows seen)
    (ts : List Triple)
    (hContiguous :
      Contiguous (seen ++ ts.map Triple.subject)) :
    ∃ p', ts.foldlM step p = .ok p' ∧
      p'.Follows (seen ++ ts.map Triple.subject) := by
  induction ts generalizing p seen with
  | nil =>
      refine ⟨p, rfl, ?_⟩
      simpa using hFollows
  | cons t ts ih =>
      rcases hFollows.exists_step t
          (hContiguous seen t.subject _ rfl) with
        ⟨p', hStep, hFollows'⟩
      have hAssoc : seen ++ (t :: ts).map Triple.subject =
          (seen ++ [t.subject]) ++ ts.map Triple.subject := by
        simp
      rw [hAssoc] at hContiguous ⊢
      rcases ih hFollows' hContiguous with
        ⟨p'', hRun, hFollows''⟩
      refine ⟨p'', ?_, hFollows''⟩
      rw [List.foldlM_cons, hStep]
      exact hRun

end GroupingPass

/-
  Triples whose subjects are contiguous have one group for each
  subject, in the order of the subjects.
-/
theorem exists_grouped
    {ts : List Triple}
    (hContiguous : Contiguous (ts.map Triple.subject)) :
    ∃ g, grouped ts = .ok g ∧
      g.groups.map Group.subject =
        (ts.map Triple.subject).eraseDups := by
  rcases GroupingPass.follows_start.exists_run ts hContiguous
    with ⟨p, hRun, hFollows⟩
  refine ⟨p.finish, ?_, ?_⟩
  · rw [grouped, hRun]
    rfl
  · rw [← List.nil_append (ts.map Triple.subject),
      ← hFollows.groups]
    simp [GroupingPass.finish, GroupingPass.subjects]

end Factbase
