import Factbase.Proofs.Query.Tours
import Factbase.Proofs.Text.Numerals

/-
  Scans of integers.

  A range compares the texts of integers.  Those of one count of
  digits are in the order of the integers as long as no two of
  them are below zero, and in the reverse order if all are.  So
  a range of integers below zero goes the wrong way: after one of
  them come the lesser ones, from the greatest of these on.

  Key definitions include:
    * `HasInteger`
    * `HoldsIntegers`
    * `IsIntegerTour`
    * `Digits.coding`

  Main declarations:
    * `Digits.exists_texts`
    * `Store.list_beyond_integer`
    * `Store.list_integers`
-/

namespace Factbase

------------------------------------------------------------
-- Integers of a Predicate
------------------------------------------------------------

section Definitions

variable (ts : List Triple)
variable (predicate : String)

/- A subject has an integer for a predicate. -/
def HasInteger
    (subject : String)
    (n : Int) : Prop :=
  ∃ text, encode (.integer n) = .ok text ∧
    ⟨subject, predicate, text⟩ ∈ ts

/- A predicate has no values but integers of one count of digits. -/
def HoldsIntegers (size : Nat) : Prop :=
  ∀ u ∈ ts, u.predicate = predicate →
    ∃ n, Digits.count n = size ∧
      encode (.integer n) = .ok u.encoded

/-
  A tour of the integers beyond a threshold in the order of their
  texts.  It is one in the order of the integers if none of them
  is below zero, and one in the reverse order if all are.
-/
structure IsIntegerTour
    (d : Direction)
    (threshold : Int)
    (tour : List (String × Int)) : Prop where
  byText :
    IsTour (HasInteger ts predicate) (d.Along Digits.TextBefore)
      threshold tour
  inOrder : 0 ≤ threshold →
    (∀ s n, HasInteger ts predicate s n → 0 ≤ n) →
      IsTour (HasInteger ts predicate) (d.Along (· < ·))
        threshold tour
  inReverse : threshold < 0 →
    (∀ s n, HasInteger ts predicate s n → n < 0) →
      IsTour (HasInteger ts predicate) (d.Along (· > ·))
        threshold tour

end Definitions

variable {ts : List Triple}
variable {predicate subject : String}
variable {a b n : Int}
variable {d : Direction}
variable {size : Nat}

------------------------------------------------------------
-- Texts of Integers
------------------------------------------------------------

namespace Digits

/- The text that an integer is stored as. -/
def stored (n : Int) : String :=
  .ofList (writeInt n)

theorem encode_integer (n : Int) :
    encode (.integer n) = .ok (stored n) :=
  rfl

/- Different integers have different texts. -/
theorem stored_inj : stored a = stored b ↔ a = b := by
  rw [stored, stored, String.ofList_inj, writeInt_inj]

/- Texts of one length are in the order of their digits. -/
theorem utf8_stored_lt_iff (hCount : count a = count b) :
    utf8 (stored a) < utf8 (stored b) ↔ TextBefore a b := by
  rw [utf8_lt_iff]
  change (String.ofList _).toList < (String.ofList _).toList ↔ _
  rw [String.toList_ofList, String.toList_ofList,
    writeInt_lt_iff hCount]

/-
  The texts of two integers with one count of digits are in the
  order of the integers, unless both of these are below zero.
-/
theorem exists_texts (hCount : count a = count b) :
    ∃ x y, encode (.integer a) = .ok x ∧
      encode (.integer b) = .ok y ∧
      (0 ≤ a ∨ 0 ≤ b → (utf8 x < utf8 y ↔ a < b)) ∧
      (a < 0 → b < 0 → (utf8 x < utf8 y ↔ b < a)) := by
  refine ⟨stored a, stored b, encode_integer a,
    encode_integer b, ?_, ?_⟩
  · intro hSign
    rw [utf8_stored_lt_iff hCount, textBefore_iff_lt hSign]
  · intro hA hB
    rw [utf8_stored_lt_iff hCount, textBefore_iff_gt hA hB]

/- Integers with a count of digits as keys of their texts. -/
def coding (size : Nat) : Coding Int :=
  { Fits := fun n => count n = size,
    text := stored,
    Before := TextBefore,
    before_iff := fun hA hB =>
      utf8_stored_lt_iff (hA.trans hB.symm),
    text_inj := fun _ _ => stored_inj }

end Digits

/- The values of such a predicate are texts of integers. -/
theorem HoldsIntegers.covers
    (hHolds : HoldsIntegers ts predicate size) :
    (Digits.coding size).Covers ts predicate := by
  intro u hTriple hPredicate
  rcases hHolds u hTriple hPredicate with ⟨n, hCount, hEncode⟩
  rw [Digits.encode_integer, Except.ok.injEq] at hEncode
  exact ⟨n, hCount, hEncode.symm⟩

theorem HoldsIntegers.has_iff
    (hHolds : HoldsIntegers ts predicate size) :
    (Digits.coding size).Has ts predicate subject n ↔
      HasInteger ts predicate subject n := by
  constructor
  · rintro ⟨_, hTriple⟩
    exact ⟨_, Digits.encode_integer n, hTriple⟩
  · rintro ⟨text, hEncode, hTriple⟩
    rw [Digits.encode_integer, Except.ok.injEq] at hEncode
    subst hEncode
    rcases hHolds.covers _ hTriple rfl with ⟨m, hCount, hText⟩
    rw [← Digits.stored_inj.mp hText] at hCount
    exact ⟨hCount, hTriple⟩

------------------------------------------------------------
-- Tours of Integers
------------------------------------------------------------

/- Without negative integers, the scan goes by numbers. -/
theorem Direction.along_textBefore_iff_lt
    (hA : 0 ≤ a)
    (hB : 0 ≤ b) :
    d.Along Digits.TextBefore a b ↔ d.Along (· < ·) a b := by
  cases d with
  | ascending => exact Digits.textBefore_iff_lt (.inl hA)
  | descending => exact Digits.textBefore_iff_lt (.inl hB)

/- Among negative integers, it goes the other way. -/
theorem Direction.along_textBefore_iff_gt
    (hA : a < 0)
    (hB : b < 0) :
    d.Along Digits.TextBefore a b ↔ d.Along (· > ·) a b := by
  cases d with
  | ascending => exact Digits.textBefore_iff_gt hA hB
  | descending => exact Digits.textBefore_iff_gt hB hA

theorem IsTour.isIntegerTour
    {tour : List (String × Int)}
    (hTour : IsTour (HasInteger ts predicate)
      (d.Along Digits.TextBefore) n tour) :
    IsIntegerTour ts predicate d n tour := by
  refine ⟨hTour, ?_, ?_⟩
  · intro hThreshold hSign
    exact hTour.congr (fun _ _ => Iff.rfl)
      (fun s m hHas => Direction.along_textBefore_iff_lt
        hThreshold (hSign s m hHas))
      (fun s l s' m hHas hHas' => Direction.along_textBefore_iff_lt
        (hSign s l hHas) (hSign s' m hHas'))
  · intro hThreshold hSign
    exact hTour.congr (fun _ _ => Iff.rfl)
      (fun s m hHas => Direction.along_textBefore_iff_gt
        hThreshold (hSign s m hHas))
      (fun s l s' m hHas hHas' => Direction.along_textBefore_iff_gt
        (hSign s l hHas) (hSign s' m hHas'))

namespace Store

/-
  A range of integers with one count of digits lists the triples
  of the subjects of a tour, unless the collection has a name
  that the statement gives to a set of its own.
-/
theorem list_beyond_integer
    {s : Store}
    {c : Connection}
    (hReach : c.Reachable)
    (hAll : (s.list .all).on c = (.ok ts, c))
    (hHolds : HoldsIntegers ts predicate (Digits.count n))
    (d : Direction) :
    ∃ r tour,
      RangeQuery.beyond d predicate (.integer n) = .ok r ∧
      IsIntegerTour ts predicate d n tour ∧
      (s.list (.range r)).on c =
        (s.tourAnswer ts r (tour.map Prod.fst), c) := by
  rcases list_tour (Digits.coding (Digits.count n)) hReach hAll
      hHolds.covers (t := n) rfl d with ⟨tour, hTour, hList⟩
  have hIntegers := hTour.congr
    (fun _ _ => hHolds.has_iff)
    (fun _ _ _ => Iff.rfl)
    (fun _ _ _ _ _ _ => Iff.rfl)
  exact ⟨_, tour, rfl, hIntegers.isIntegerTour, hList⟩

/-
  The texts of two integers with one count of digits are in the
  order of the integers if one of these is not below zero, and in
  the reverse order if both are.  So on any reachable connection,
  where a predicate holds integers with the threshold's count of
  digits only, a range after it and one before it list the
  subjects in the order of the texts: the numeric one as long as
  no integer is below zero, and the reverse one if all are.
-/
theorem list_integers
    {a b : Int}
    (hCount : Digits.count a = Digits.count b)
    {s : Store}
    {c : Connection}
    {ts : List Triple}
    {predicate : String}
    {n : Int}
    (hReach : c.Reachable)
    (hAll : (s.list .all).on c = (.ok ts, c))
    (hHolds : HoldsIntegers ts predicate (Digits.count n)) :
    (∃ x y, encode (.integer a) = .ok x ∧
      encode (.integer b) = .ok y ∧
      (0 ≤ a ∨ 0 ≤ b → (utf8 x < utf8 y ↔ a < b)) ∧
      (a < 0 → b < 0 → (utf8 x < utf8 y ↔ b < a))) ∧
    (∃ r tour,
      after predicate (.integer n) = .ok r ∧
      IsIntegerTour ts predicate .ascending n tour ∧
      (s.list (.range r)).on c =
        (s.tourAnswer ts r (tour.map Prod.fst), c)) ∧
    ∃ r tour,
      before predicate (.integer n) = .ok r ∧
      IsIntegerTour ts predicate .descending n tour ∧
      (s.list (.range r)).on c =
        (s.tourAnswer ts r (tour.map Prod.fst), c) :=
  ⟨Digits.exists_texts hCount,
    list_beyond_integer hReach hAll hHolds .ascending,
    list_beyond_integer hReach hAll hHolds .descending⟩

/-
  Of two ages below zero the lesser one has the later text, so it
  is the one that is listed after an age between them.
-/
theorem list_integers_people :
    let s : Store := ⟨"people"⟩
    let bob := ((s.set "bob" "age" (.integer (-15))).on
      (.fresh "people")).2
    let people := ((s.set "ann" "age" (.integer (-12))).on bob).2
    let ts : List Triple :=
      [⟨"ann", "age", "-12"⟩, ⟨"bob", "age", "-15"⟩]
    (∃ x y, encode (.integer (-12)) = .ok x ∧
      encode (.integer (-15)) = .ok y ∧ utf8 x < utf8 y) ∧
    people.Reachable ∧
    (s.list .all).on people = (.ok ts, people) ∧
    HoldsIntegers ts "age" (Digits.count (-13)) ∧
    ∃ r, after "age" (.integer (-13)) = .ok r ∧
      (s.list (.range r)).on people =
        (.ok [⟨"bob", "age", "-15"⟩], people) := by
  intro s bob people ts
  have hFold : foldName "people" = "people" := foldName_eq_self rfl
  have hReach : people.Reachable :=
    ((Connection.reachable_fresh (by decide) hFold
      (by decide)).step (.perform s (.set "bob" "age" _))).step
        (.perform s (.set "ann" "age" _))
  have hAll : (s.list .all).on people = (.ok ts, people) :=
    on_list_all_pair (s := s) (Connection.rows_fresh hFold) rfl rfl
      (by decide)
  have hHolds : HoldsIntegers ts "age" (Digits.count (-13)) := by
    intro u hTriple _
    rcases List.mem_pair.mp hTriple with rfl | rfl
    · exact ⟨-12, rfl, rfl⟩
    · exact ⟨-15, rfl, rfl⟩
  rcases list_integers (a := -12) (b := -15) rfl hReach hAll
      hHolds with
    ⟨⟨x, y, hX, hY, _, hBytes⟩,
      ⟨r, tour, hAfter, hTour, hList⟩, _⟩
  -- only bob has an integer whose text is beyond the threshold
  have hSubjects : tour.map Prod.fst = ["bob"] := by
    apply List.perm_singleton.mp
    apply (List.perm_ext_iff_of_nodup hTour.byText.once
      (List.nodup_singleton _)).mpr
    intro subject
    rw [hTour.byText.visited, List.mem_singleton]
    constructor
    · rintro ⟨n, ⟨text, hEncode, hTriple⟩, hSooner⟩
      rcases List.mem_pair.mp hTriple with hAnn | hBob
      · cases hAnn
        have hAge : Digits.stored n = Digits.stored (-12) :=
          Except.ok.inj hEncode
        rw [Digits.stored_inj.mp hAge] at hSooner
        have hNot : ¬ Digits.TextBefore (-13) (-12) := by decide
        exact absurd hSooner hNot
      · cases hBob
        rfl
    · rintro rfl
      have hSooner : Digits.TextBefore (-13) (-15) := by decide
      exact ⟨-15, ⟨"-15", rfl, by simp [ts]⟩, hSooner⟩
  rw [hSubjects] at hList
  refine ⟨⟨x, y, hX, hY, (hBytes (by decide) (by decide)).mpr
    (by decide)⟩, hReach, hAll, hHolds, r, hAfter, ?_⟩
  rw [hList, tourAnswer, if_neg]
  · rfl
  · change foldName "people" ∉ ["candidates", "ordered_subjects"]
    rw [hFold]
    decide

end Store

end Factbase
