import Factbase.Proofs.Calendar.TextOrder
import Factbase.Proofs.Query.Tours

/-
  Scans of instants.

  Where a predicate holds instants with years of four digits
  only, a range of it is one of time: it visits the subjects
  with an instant beyond the threshold, by the nearest of these.
  All of them are taken as a clock shows them, which changes only
  a leap second in the middle of a minute.

  Key definitions include:
    * `Direction.Sooner`
    * `HasInstant`
    * `IsTimeline`
    * `Store.timelineAnswer`
    * `Instant.coding`

  Main declarations:
    * `IsTour.isTimeline`
    * `Store.list_in_time`
-/

namespace Factbase

------------------------------------------------------------
-- Instants of a Predicate
------------------------------------------------------------

/- An instant is met before another one in a direction. -/
def Direction.Sooner
    (d : Direction)
    (a b : Instant) : Prop :=
  match d with
  | .ascending => a.before b
  | .descending => b.before a

variable (ts : List Triple)

/- A stored text of a subject shows an instant. -/
def HasInstant
    (subject predicate : String)
    (i : Instant) : Prop :=
  i.FixedWidth ∧ ∃ text, encode (.moment i.utc) = .ok text ∧
    ⟨subject, predicate, text⟩ ∈ ts

/- A predicate has no values but instants, in any leap second. -/
def HoldsInstants (predicate : String) : Prop :=
  ∀ u ∈ ts, u.predicate = predicate →
    ∃ i : Instant, i.Dated ∧
      encode (.moment i.utc) = .ok u.encoded

/-
  The subjects with an instant beyond a threshold, each once
  and with the nearest such instant, in the order of these and
  by subject where they are the same.
-/
structure IsTimeline
    (predicate : String)
    (d : Direction)
    (threshold : Instant)
    (timeline : List (String × Instant)) : Prop where
  ordered : timeline.Pairwise fun a b =>
    d.Sooner a.2 b.2 ∨ a.2 = b.2 ∧ utf8 a.1 < utf8 b.1
  once : (timeline.map Prod.fst).Nodup
  visited : ∀ s, s ∈ timeline.map Prod.fst ↔
    ∃ i, HasInstant ts s predicate i ∧ d.Sooner threshold i
  nearest : ∀ a ∈ timeline,
    (HasInstant ts a.1 predicate a.2 ∧
      d.Sooner threshold a.2) ∧
    ∀ i, HasInstant ts a.1 predicate i →
      d.Sooner threshold i → ¬ d.Sooner i a.2

/-
  The triples of the subjects of a timeline, those of one after
  another.  A range cannot list them if the collection has a
  name that its statement gives to a set of its own.
-/
def Store.timelineAnswer
    (s : Store)
    (r : RangeQuery)
    (timeline : List (String × Instant)) :
    Except StoreError (List Triple) :=
  if foldName s.collection ∈ (Query.range r).ownNames then
    .error (.execution
      (.circularReference (foldName s.collection)))
  else
    .ok (timeline.flatMap fun a =>
      ts.filter fun u => u.subject = a.1)

variable {ts}
variable {subject predicate : String}
variable {a b i t : Instant}
variable {d : Direction}

theorem Instant.text_inj
    (ha : a.FixedWidth)
    (hb : b.FixedWidth) : a.text = b.text ↔ a = b := by
  rw [← utf8_inj, Instant.utf8_text_inj ha hb]

theorem hasInstant_iff :
    HasInstant ts subject predicate i ↔
      i.FixedWidth ∧ ⟨subject, predicate, i.text⟩ ∈ ts := by
  constructor
  · rintro ⟨hFixed, text, hEncode, hTriple⟩
    rw [Instant.encode_moment hFixed, Except.ok.injEq] at hEncode
    rw [hEncode]
    exact ⟨hFixed, hTriple⟩
  · rintro ⟨hFixed, hTriple⟩
    exact ⟨hFixed, i.text, Instant.encode_moment hFixed, hTriple⟩

/- Instants as keys of the texts that they are stored as. -/
def Instant.coding : Coding Instant :=
  { Fits := FixedWidth,
    text := Instant.text,
    Before := Instant.before,
    before_iff := utf8_text_lt_iff,
    text_inj := Instant.text_inj }

theorem Direction.sooner_iff_along :
    d.Sooner a b ↔ d.Along Instant.before a b := by
  cases d <;> rfl

/- The values of such a predicate are texts of instants. -/
theorem HoldsInstants.covers
    (hHolds : HoldsInstants ts predicate) :
    Instant.coding.Covers ts predicate := by
  intro u hTriple hPredicate
  rcases hHolds u hTriple hPredicate with ⟨i, hDated, hEncode⟩
  rw [Instant.encode_dated hDated, Except.ok.injEq] at hEncode
  exact ⟨i.settled, hDated.fixedWidth_settled, hEncode.symm⟩

/- A tour of instants is a timeline. -/
theorem IsTour.isTimeline
    {timeline : List (String × Instant)}
    (hTour : IsTour (Instant.coding.Has ts predicate)
      (d.Along Instant.before) t timeline) :
    IsTimeline ts predicate d t timeline := by
  have hSame : IsTour (fun s i => HasInstant ts s predicate i)
      d.Sooner t timeline := hTour.congr
    (fun _ _ => hasInstant_iff.symm)
    (fun _ _ _ => Direction.sooner_iff_along.symm)
    (fun _ _ _ _ _ _ => Direction.sooner_iff_along.symm)
  exact ⟨hSame.ordered, hSame.once, hSame.visited, hSame.nearest⟩

------------------------------------------------------------
-- Lists in Time
------------------------------------------------------------

namespace Store

theorem timelineAnswer_eq
    (s : Store)
    (r : RangeQuery)
    (timeline : List (String × Instant)) :
    s.timelineAnswer ts r timeline =
      s.tourAnswer ts r (timeline.map Prod.fst) := by
  rw [timelineAnswer, tourAnswer, List.flatMap_map]

/-
  A range of instants lists the triples of the subjects of a
  timeline, unless the collection has a name that the statement
  gives to a set of its own.
-/
theorem list_beyond
    {s : Store}
    {c : Connection}
    (hReach : c.Reachable)
    (hAll : (s.list .all).on c = (.ok ts, c))
    (hHolds : HoldsInstants ts predicate)
    (ht : t.Dated)
    (d : Direction) :
    ∃ r timeline,
      RangeQuery.beyond d predicate (.moment t.utc) = .ok r ∧
      IsTimeline ts predicate d t.settled timeline ∧
      (s.list (.range r)).on c =
        (s.timelineAnswer ts r timeline, c) := by
  rcases list_tour Instant.coding hReach hAll hHolds.covers
      ht.fixedWidth_settled d with ⟨timeline, hTour, hList⟩
  refine ⟨Instant.coding.range predicate d t.settled, timeline,
    ?_, hTour.isTimeline, ?_⟩
  · rw [RangeQuery.beyond, Instant.encode_dated ht]
    rfl
  · rw [timelineAnswer_eq]
    exact hList

end Store

/-
  The bytes of instants with years of four digits compare as
  what a clock shows of them.  These are the instants themselves,
  leap seconds at the end of a minute included; only in the
  middle of a minute is a leap second the second that follows.
  So on any reachable connection, where a predicate holds such
  instants only, a range after one lists the subjects with a
  later instant by the earliest such, and a range before one
  those with an earlier instant by the latest such, from the last
  one on.
-/
theorem Store.list_in_time
    {a b : Instant}
    (ha : a.Dated)
    (hb : b.Dated)
    {s : Store}
    {c : Connection}
    {ts : List Triple}
    {predicate : String}
    {t : Instant}
    (hReach : c.Reachable)
    (hAll : (s.list .all).on c = (.ok ts, c))
    (hHolds : HoldsInstants ts predicate)
    (ht : t.Dated) :
    (∃ x y, encode (.moment a.utc) = .ok x ∧
      encode (.moment b.utc) = .ok y ∧
      (utf8 x < utf8 y ↔ a.settled.before b.settled) ∧
      (utf8 x = utf8 y ↔ a.settled = b.settled) ∧
      (utf8 y < utf8 x ↔ b.settled.before a.settled) ∧
      (a.Proper → b.Proper →
        (utf8 x < utf8 y ↔ a.before b) ∧
        (utf8 x = utf8 y ↔ a = b) ∧
        (utf8 y < utf8 x ↔ b.before a))) ∧
    (∃ r timeline,
      after predicate (.moment t.utc) = .ok r ∧
      IsTimeline ts predicate .ascending t.settled timeline ∧
      (s.list (.range r)).on c =
        (s.timelineAnswer ts r timeline, c)) ∧
    ∃ r timeline,
      before predicate (.moment t.utc) = .ok r ∧
      IsTimeline ts predicate .descending t.settled timeline ∧
      (s.list (.range r)).on c =
        (s.timelineAnswer ts r timeline, c) := by
  refine ⟨?_, list_beyond hReach hAll hHolds ht .ascending,
    list_beyond hReach hAll hHolds ht .descending⟩
  have hA := ha.fixedWidth_settled
  have hB := hb.fixedWidth_settled
  have hLess := Instant.utf8_text_lt_iff hA hB
  have hSame := Instant.utf8_text_inj hA hB
  have hMore := Instant.utf8_text_lt_iff hB hA
  refine ⟨a.settled.text, b.settled.text, Instant.encode_dated ha,
    Instant.encode_dated hb, hLess, hSame, hMore, ?_⟩
  intro hProper hProper'
  rw [Instant.settled_of_proper hProper,
    Instant.settled_of_proper hProper'] at *
  exact ⟨hLess, hSame, hMore⟩

/-
  One subject in a leap second and one in the second after it,
  both later than the last ordinary second of that day, although
  the threshold is given as a leap second before that one.
-/
theorem Store.list_in_time_people :
    let last : Instant := ⟨1483228798, 1000000000⟩
    let leap : Instant := ⟨1483228799, 1500000000⟩
    let next : Instant := ⟨1483228800, 0⟩
    let bob := ((Command.set "bob" "met" (.moment next.utc)).action
      ⟨"people"⟩).on (.fresh "people") |>.2
    let people := ((Command.set "ann" "met" (.moment leap.utc)).action
      ⟨"people"⟩).on bob |>.2
    let ts : List Triple :=
      [⟨"ann", "met", leap.text⟩, ⟨"bob", "met", next.text⟩]
    (∃ x y, encode (.moment leap.utc) = .ok x ∧
      encode (.moment next.utc) = .ok y ∧ utf8 x < utf8 y) ∧
      people.Reachable ∧
      (list ⟨"people"⟩ .all).on people = (.ok ts, people) ∧
      ∃ r timeline,
        after "met" (.moment last.utc) = .ok r ∧
        IsTimeline ts "met" .ascending ⟨1483228799, 0⟩ timeline ∧
        (list ⟨"people"⟩ (.range r)).on people =
          (timelineAnswer ts ⟨"people"⟩ r timeline, people) := by
  intro last leap next bob people ts
  have hLast : last.Dated := by decide
  have hLeap : leap.FixedWidth := by decide
  have hNext : next.FixedWidth := by decide
  have hFold : foldName "people" = "people" :=
    foldName_eq_self rfl
  have hReach : people.Reachable :=
    ((Connection.reachable_fresh (by decide) hFold
      (by decide)).step (.perform ⟨"people"⟩ _)).step
        (.perform ⟨"people"⟩ _)
  have hAll : (list ⟨"people"⟩ .all).on people =
      (.ok ts, people) :=
    on_list_all_pair (s := ⟨"people"⟩)
      (Connection.rows_fresh hFold) (Instant.encode_moment hLeap)
      (Instant.encode_moment hNext) (by decide)
  have hHolds : HoldsInstants ts "met" := by
    intro u hTriple _
    rcases List.mem_pair.mp hTriple with rfl | rfl
    · exact ⟨leap, hLeap.dated, Instant.encode_moment hLeap⟩
    · exact ⟨next, hNext.dated, Instant.encode_moment hNext⟩
  rcases list_in_time hLeap.dated hNext.dated hReach hAll hHolds
    hLast with ⟨⟨x, y, hX, hY, hBytes, _⟩, hAfter, _⟩
  have hShown : last.settled = ⟨1483228799, 0⟩ := by decide
  rw [hShown] at hAfter
  exact ⟨⟨x, y, hX, hY, hBytes.mpr (by decide)⟩, hReach, hAll,
    hAfter⟩

end Factbase
